import QueryResult.Proofs.Buffer.Scan
import QueryResult.Proofs.Buffer.Soundness

/-!
# Membership in finalized results

A finalized result keeps its rows. Its answers to questions of membership agree
with them, whether they come from the index of the store or from a private one,
unless the index is that of a distinct result kept for random access, and the
window has cut rows that the index still has.
-/

set_option autoImplicit false

namespace QueryResult

/-- The command is a question of membership, or prepares for such questions. -/
def Command.probes : Command → Bool
  | .contains _ | .buildIndex => true
  | _ => false

/-- What a question is answered from an index. -/
def Command.answerFrom (index : ContentIndex) : Command → Answer
  | .contains row => .flag (index.contains (RowKey.ofRow row))
  | _ => .done

/-- The index answers what the rows say. -/
def ContentIndex.Answers (visible : Nat) (rows : List Row) (index : ContentIndex) : Prop :=
  ∀ row, index.contains (RowKey.ofRow row) = true ↔
    ∃ held ∈ rows, sameContent (held.take visible) row = true

namespace ContentIndex

variable {visible : Nat} {rows : List Row} {index : ContentIndex} {map : ContentMap}

theorem Represents.answers (represents : index.Represents map)
    (contents : ∀ content, content ∈ map ↔
      ∃ held ∈ rows, RowContent.of (held.take visible) = content) :
    index.Answers visible rows := by
  intro row
  simp only [← RowContent.of_eq_of_iff]
  exact represents.contains_iff.trans (contents (RowContent.of row))

theorem answers_empty (visible : Nat) : Answers visible [] empty :=
  represents_empty.answers fun content => by simp [Finmap.notMem_empty]

theorem ofRows_answers (wide : ∀ row ∈ rows, visible ≤ row.length)
    (made : ofRows visible rows = .ok index) : index.Answers visible rows := by
  obtain ⟨built, builtFromRows, represents⟩ := ofRows_represents wide
  have same : built = index := Except.ok.inj (builtFromRows.symm.trans made)
  exact same ▸ represents.answers fun _ => mem_leadingMap_iff

/-- The contents of the visible values of the indexed rows are those of the map. -/
theorem Projects.contents (projects : index.Projects visible) :
    ∃ map : ContentMap, index.Represents map ∧
      ((index.values.map fun row => RowContent.of (row.take visible)) : Multiset RowContent) =
        map.keys.val := by
  obtain ⟨map, represents, keyed⟩ := projects.keyed
  refine ⟨map, represents, ?_⟩
  rw [← keyed.map_entries, ← represents.values_eq, Multiset.map_coe]

theorem Projects.answers (projects : index.Projects visible)
    (sameRows : rows.Perm index.values) : index.Answers visible rows := by
  obtain ⟨map, represents, contents⟩ := projects.contents
  refine represents.answers fun content => ?_
  rw [← Finmap.mem_keys, ← Finset.mem_val, ← contents, Multiset.mem_coe, List.mem_map]
  exact ⟨fun ⟨held, listed, same⟩ => ⟨held, sameRows.mem_iff.mpr listed, same⟩,
    fun ⟨held, listed, same⟩ => ⟨held, sameRows.mem_iff.mp listed, same⟩⟩

theorem Projects.nodup (projects : index.Projects visible) :
    (index.values.map fun row => RowContent.of (row.take visible)).Nodup := by
  obtain ⟨map, _, contents⟩ := projects.contents
  rw [← Multiset.coe_nodup, contents]
  exact map.keys.nodup

end ContentIndex

namespace ResultState

variable {settings : Settings} {state : ResultState} {visible : Nat} {rows : List Row}

/-! ## Questions -/

/-- The state with another private index. -/
def withLookup (lookup : Option ContentIndex) (state : ResultState) : ResultState :=
  { state with buffer := { state.buffer with lookup := lookup } }

theorem hasIndex_eq (state : ResultState) :
    state.hasIndex = state.membershipIndex.isSome := by
  unfold hasIndex membershipIndex
  cases state.store.index <;> rfl

theorem perform_probe_of_present (settings : Settings) {command : Command}
    (probes : command.probes = true) {index : ContentIndex}
    (found : state.membershipIndex = some index) :
    state.perform settings command = .accept (command.answerFrom index) state [] := by
  have present : state.hasIndex = true := by rw [hasIndex_eq, found]; rfl
  cases command with
  | contains row =>
      rw [perform, contains, buildIndex, if_pos present, Outcome.andThen_accept, found]
      rfl
  | buildIndex =>
      rw [perform, buildIndex, if_pos present]
      rfl
  | _ => cases probes

theorem perform_probe_of_missing (settings : Settings) {command : Command}
    (probes : command.probes = true) {index : ContentIndex} (missing : state.hasIndex = false)
    (made : ContentIndex.ofRows state.buffer.visible state.rows = .ok index) :
    state.perform settings command =
      .accept (command.answerFrom index) (state.withLookup (some index))
        [.indexBuilt state.store.rows.size index.size] := by
  cases command with
  | contains row =>
      rw [perform, contains, buildIndex, if_neg (by simp [missing]), made]
      simp only [Outcome.andThen_accept, membershipIndex,
        (index_eq_none_of_not_hasIndex missing).1]
      rfl
  | buildIndex =>
      rw [perform, buildIndex, if_neg (by simp [missing]), made]
      rfl
  | _ => cases probes

theorem Sound.ofRows (sound : state.Sound) :
    ∃ index, ContentIndex.ofRows state.buffer.visible state.rows = .ok index ∧
      index.Answers state.buffer.visible state.rows := by
  obtain ⟨index, made, _⟩ := ContentIndex.ofRows_represents sound.wide
  exact ⟨index, made, ContentIndex.ofRows_answers sound.wide made⟩

/-- The answer to a question, if the index that there may be answers what the rows say. -/
theorem contains_of_answers (sound : state.Sound) (settings : Settings)
    (answers : ∀ index, state.membershipIndex = some index →
      index.Answers state.buffer.visible state.rows) (row : Row) :
    ∃ found, (state.perform settings (.contains row)).answer = .ok (.flag found) ∧
      (found = true ↔
        ∃ held ∈ state.rows, sameContent (held.take state.buffer.visible) row = true) := by
  have probes : Command.probes (.contains row) = true := rfl
  cases present : state.membershipIndex with
  | some index =>
      rw [perform_probe_of_present settings probes present]
      exact ⟨_, rfl, answers index present row⟩
  | none =>
      have missing : state.hasIndex = false := by rw [hasIndex_eq, present]; rfl
      obtain ⟨index, made, indexAnswers⟩ := sound.ofRows
      rw [perform_probe_of_missing settings probes missing made]
      exact ⟨_, rfl, indexAnswers row⟩

/-! ## Rows that stay -/

/-- The rows of the store cannot change any more: the result is finalized, or it is distinct and
has lost its index. -/
def RowsFixed (state : ResultState) : Prop :=
  state.buffer.finalized = true ∨
    state.buffer.distinct = true ∧ state.store.index = none ∧ 0 < state.buffer.rowCount

theorem finalize_indexMissing (distinct : state.buffer.distinct = true)
    (missing : state.store.index = none) (unfinalized : state.buffer.finalized = false) :
    (state.finalize settings).state = state := by
  unfold finalize materialize
  rw [if_neg (by simp [unfinalized]), if_neg (by simp [distinct])]
  by_cases shared : state.store.frozen = true
  · rw [if_pos shared]
    rfl
  · rw [if_neg shared, missing]
    rfl

theorem RowsFixed.perform (fixed : state.RowsFixed) (settings : Settings) (command : Command) :
    (state.perform settings command).state.store.rows = state.store.rows ∧
      (state.perform settings command).state.buffer.visible = state.buffer.visible ∧
      (state.perform settings command).state.RowsFixed := by
  by_cases finalizing : command = .finalize
  · subst finalizing
    rw [ResultState.perform, state_mapAnswer]
    cases finalized : state.buffer.finalized with
    | true =>
        rw [finalize, if_pos finalized]
        exact ⟨rfl, rfl, .inl finalized⟩
    | false =>
        rcases fixed with contra | ⟨distinct, missing, counted⟩
        · simp [finalized] at contra
        · rw [finalize_indexMissing distinct missing finalized]
          exact ⟨rfl, rfl, .inr ⟨distinct, missing, counted⟩⟩
  · have effect := state.perform_effect settings finalizing
    generalize state.perform settings command = outcome at effect
    cases effect with
    | madeDistinct noRows =>
        rcases fixed with finalized | ⟨_, _, counted⟩
        · exact ⟨rfl, rfl, .inl finalized⟩
        · omega
    | appended row registered context events fillable plain =>
        rcases fixed with finalized | ⟨distinct, _, _⟩
        · simp [fillable.unfinalized] at finalized
        · simp [plain] at distinct
    | put row index registered context events fillable _ _ present =>
        rcases fixed with finalized | ⟨_, missing, _⟩
        · simp [fillable.unfinalized] at finalized
        · simp [present] at missing
    | removed row index fillable _ present =>
        rcases fixed with finalized | ⟨_, missing, _⟩
        · simp [fillable.unfinalized] at finalized
        · simp [present] at missing
    | _ => exact ⟨rfl, rfl, fixed⟩

/-! ## Finalized results -/

/-- The result is finalized and has the given rows. -/
structure Showing (visible : Nat) (rows : List Row) (state : ResultState) : Prop where
  finalized : state.buffer.finalized = true
  projection : state.buffer.visible = visible
  held : state.rows = rows

/-- The result has the given rows, and its indexes answer what they say. -/
structure Answering (visible : Nat) (rows : List Row) (state : ResultState) : Prop where
  showing : state.Showing visible rows
  index : ∀ index, state.store.index = some index → index.Answers visible rows
  lookup : ∀ index, state.buffer.lookup = some index → index.Answers visible rows

theorem Showing.perform (showing : state.Showing visible rows) (settings : Settings)
    (command : Command) : (state.perform settings command).state.Showing visible rows := by
  have fixed : state.RowsFixed := .inl showing.finalized
  obtain ⟨sameRows, sameVisible, _⟩ := fixed.perform settings command
  exact ⟨finalized_perform settings showing.finalized command, sameVisible.trans showing.projection,
    (congrArg Array.toList sameRows).trans showing.held⟩

/-- An open cursor that is put before the first row delivers the rows. -/
theorem Showing.delivers (showing : state.Showing visible rows) (sound : state.Sound)
    (isOpen : state.buffer.closed = false) (listed : List Row) :
    Delivers { state with buffer := state.buffer.rewound } listed ↔ listed = rows := by
  have readable : Readable { state with buffer := state.buffer.rewound } :=
    ⟨showing.finalized, isOpen, sound.counted showing.finalized⟩
  have delivered := readable.delivers_rows rfl
  constructor
  · intro other
    exact (other.unique delivered).trans showing.held
  · rintro rfl
    exact showing.held ▸ delivered

theorem Answering.perform (answering : state.Answering visible rows) (sound : state.Sound)
    (settings : Settings) (command : Command) :
    (state.perform settings command).state.Answering visible rows := by
  have showing := answering.showing.perform settings command
  have finalized := answering.showing.finalized
  have indexed : ∀ index, ContentIndex.ofRows state.buffer.visible state.rows = .ok index →
      index.Answers visible rows := by
    intro index made
    have answers := ContentIndex.ofRows_answers sound.wide made
    rwa [answering.showing.projection, answering.showing.held] at answers
  by_cases finalizing : command = .finalize
  · subst finalizing
    rw [ResultState.perform, finalize, if_pos finalized] at showing ⊢
    exact ⟨showing, answering.index, answering.lookup⟩
  · have effect := state.perform_effect settings finalizing
    generalize state.perform settings command = outcome at effect showing
    cases effect with
    | madeDistinct noRows =>
        refine ⟨showing, ?_, answering.lookup⟩
        rintro index made
        cases made
        have none : rows = [] := by
          rw [← answering.showing.held, ResultState.rows, ← List.length_eq_zero_iff,
            Array.length_toList, ← sound.counted finalized, noRows]
        exact none ▸ ContentIndex.answers_empty visible
    | appended row registered context events fillable =>
        simp [fillable.unfinalized] at finalized
    | put row index registered context events fillable =>
        simp [fillable.unfinalized] at finalized
    | removed row index fillable => simp [fillable.unfinalized] at finalized
    | answeredFromRows row index _ _ made =>
        refine ⟨showing, answering.index, ?_⟩
        rintro lookup present
        cases present
        exact indexed index made
    | builtIndex index _ _ made =>
        refine ⟨showing, answering.index, ?_⟩
        rintro lookup present
        cases present
        exact indexed index made
    | _ => exact ⟨showing, answering.index, answering.lookup⟩

theorem Answering.contains (answering : state.Answering visible rows) (sound : state.Sound)
    (settings : Settings) (row : Row) :
    ∃ found, (state.perform settings (.contains row)).answer = .ok (.flag found) ∧
      (found = true ↔ ∃ held ∈ rows, sameContent (held.take visible) row = true) := by
  obtain ⟨⟨_, rfl, rfl⟩, index, lookup⟩ := answering
  refine contains_of_answers sound settings (fun found present => ?_) row
  unfold membershipIndex at present
  split at present
  · rename_i own held
    cases present
    exact index found held
  · exact lookup found present

/-! ## Finalizing -/

/-- The index of a distinct result was kept for random access although the window cut rows. -/
def OutlivedCut (state final : ResultState) : Prop :=
  state.buffer.distinct = true ∧ state.buffer.randomAccess = true ∧
    final.store.rows.size < state.buffer.rowCount

theorem Sound.exists_finished (sound : state.Sound) (unfinalized : state.buffer.finalized = false)
    {final : ResultState} {events : List Event}
    (accepted : state.finalize settings = .accept () final events) :
    ∃ pending ordered, state.pending? = some pending ∧ ordered.Perm pending ∧
      final = state.finished ordered := by
  have outcome := sound.finalization settings unfinalized
  rw [accepted] at outcome
  cases outcome with
  | finished pending ordered _ gathered arranged =>
      obtain ⟨sorting, arranged⟩ := arranged
      exact ⟨pending, ordered, gathered, perm_of_arrangement arranged, rfl⟩

theorem showing_finished (state : ResultState) (ordered : List Row) :
    (state.finished ordered).Showing state.buffer.visible (state.finished ordered).rows :=
  ⟨rfl, rfl, rfl⟩

theorem Sound.keptIndex_randomAccess (sound : state.Sound) {index : ContentIndex}
    (kept : state.keptIndex = some index) :
    state.buffer.distinct = true ∧ state.buffer.randomAccess = true ∧
      state.store.index = some index := by
  cases distinct : state.buffer.distinct with
  | false =>
      rw [sound.keptIndex_plain distinct] at kept
      cases kept
  | true =>
      cases randomAccess : state.buffer.randomAccess with
      | false =>
          rw [keptIndex, if_pos ⟨distinct, randomAccess⟩] at kept
          cases kept
      | true =>
          rw [keptIndex, if_neg (by simp [randomAccess])] at kept
          exact ⟨rfl, rfl, kept⟩

theorem Sound.answering_finished (sound : state.Sound)
    (unfinalized : state.buffer.finalized = false) (unbuilt : state.buffer.lookup = none)
    {pending ordered : List Row} (gathered : state.pending? = some pending)
    (rearranged : ordered.Perm pending) (within : ¬ state.OutlivedCut (state.finished ordered)) :
    (state.finished ordered).Answering state.buffer.visible (state.finished ordered).rows := by
  refine ⟨state.showing_finished ordered, fun index kept => ?_, fun index present => ?_⟩
  · obtain ⟨distinct, randomAccess, held⟩ := sound.keptIndex_randomAccess kept
    have counted := sound.pending unfinalized pending gathered
    rw [pending?_of_index distinct held] at gathered
    have values : index.values = pending := Option.some.inj gathered
    have uncut : ordered.length ≤ (window state.buffer.offset state.buffer.limit ordered).length := by
      rw [rearranged.length_eq, ← counted]
      exact Nat.not_lt.mp fun cut => within ⟨distinct, randomAccess, cut⟩
    have whole : (state.finished ordered).rows = ordered :=
      (window_sublist _ _ ordered).eq_of_length_le uncut
    refine (sound.projects index held).answers ?_
    rwa [whole, values]
  · have none : state.buffer.lookup = some index := present
    rw [unbuilt] at none
    cases none

/-- The index that outlived the cut still has a row that was cut. -/
theorem Sound.exists_cut (sound : state.Sound) (unfinalized : state.buffer.finalized = false)
    {pending ordered : List Row} (gathered : state.pending? = some pending)
    (rearranged : ordered.Perm pending) (outlived : state.OutlivedCut (state.finished ordered)) :
    ∃ index row, (state.finished ordered).store.index = some index ∧
      index.contains (RowKey.ofRow row) = true ∧
      ¬ ∃ held ∈ (state.finished ordered).rows,
        sameContent (held.take state.buffer.visible) row = true := by
  obtain ⟨distinct, randomAccess, cut⟩ := outlived
  have counted := sound.pending unfinalized pending gathered
  rw [pending?, if_pos distinct] at gathered
  obtain ⟨index, held, rfl⟩ := Option.map_eq_some_iff.mp gathered
  have projects := sound.projects index held
  have answers := projects.answers rearranged
  have kept : state.keptIndex = some index := by
    rw [keptIndex, if_neg (by simp [randomAccess]), held]
  have nodup : (ordered.map fun row => RowContent.of (row.take state.buffer.visible)).Nodup :=
    (rearranged.map _).nodup_iff.mpr projects.nodup
  by_contra allHeld
  have covered : (ordered.map fun row => RowContent.of (row.take state.buffer.visible)) ⊆
      (state.finished ordered).rows.map fun row => RowContent.of (row.take state.buffer.visible) := by
    intro content listed
    obtain ⟨row, ordered, rfl⟩ := List.mem_map.mp listed
    have found : index.contains (RowKey.ofRow (row.take state.buffer.visible)) = true :=
      (answers _).mpr ⟨row, ordered, sameContent_iff.mpr rfl⟩
    by_contra missing
    refine allHeld ⟨index, row.take state.buffer.visible, kept, found, ?_⟩
    rintro ⟨other, otherHeld, same⟩
    exact missing (List.mem_map.mpr ⟨other, otherHeld, RowContent.of_eq_of_iff.mpr same⟩)
  have shorter := (nodup.subperm covered).length_le
  rw [List.length_map, List.length_map] at shorter
  have sameLength := rearranged.length_eq
  have remaining : (state.finished ordered).rows.length =
      (state.finished ordered).store.rows.size := rfl
  omega

end ResultState

end QueryResult
