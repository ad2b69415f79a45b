import QueryResult.Proofs.Buffer.Cursor
import QueryResult.Proofs.OrderBy.Faults

/-!
# Integrity of buffers

As long as finalizing has not failed, a distinct result that is not finalized has
its rows in its index, and nowhere else. No operation then meets a missing index,
a row that is not held, or a row that is narrower than it has to be; only a sort
key that names no visible column can be met in a row without it.
-/

set_option autoImplicit false

namespace QueryResult

/-- The fault is one of those that operations never meet as long as the representation of a result
is intact and sort keys name visible columns. -/
def Fault.Internal : Fault → Prop
  | .indexMissing | .rowMissing | .rowNarrowerThanProjection | .sortKeyOutsideRow => True
  | _ => False

namespace ContentIndex

variable {visible : Nat} {index : ContentIndex}

/-- The entries are under the visible values of their rows. -/
theorem Projects.key_agrees (projects : index.Projects visible) {entry : RowKey × Row}
    (listed : entry ∈ index.toList) :
    entry.1.agrees (RowKey.ofValues (entry.2.take visible)) = true := by
  obtain ⟨map, represents, keyed⟩ := projects.keyed
  have held : map.lookup (RowContent.of entry.1.values) = some entry.2 := by
    rw [Finmap.lookup_eq_some_iff, represents.entries, Multiset.mem_coe]
    exact List.mem_map_of_mem listed
  rw [represents.hashed entry listed, RowKey.ofValues_agrees_iff]
  exact (keyed _ _ held).symm

theorem ofRows_projects (visible : Nat) (rows : List Row) :
    Yields (fun fault => fault = .rowNarrowerThanProjection) (Projects visible)
      (ofRows visible rows) := by
  refine Yields.foldlM (fun index row projects => ?_) rows (projects_empty visible)
  unfold RowKey.ofVisible
  split
  · rename_i wide
    exact projects.insert wide
  · exact rfl

end ContentIndex

namespace ResultState

variable {settings : Settings} {state : ResultState}

/-- A distinct result that is not finalized has its rows in its index. -/
def Whole (state : ResultState) : Prop :=
  state.buffer.finalized = false → state.buffer.distinct = true →
    state.store.index.isSome = true ∧ state.rows = []

/-- The rows of the private index, if there is one, have all visible values. -/
def LookupWide (state : ResultState) : Prop :=
  ∀ index, state.buffer.lookup = some index → index.Wide state.buffer.visible

/-- The representation of the result is as it is meant to be. -/
structure Intact (state : ResultState) : Prop where
  rowsWide : ∀ row ∈ state.rows, state.buffer.visible ≤ row.length
  indexWide : ∀ index, state.store.index = some index → index.Wide state.buffer.visible
  lookupWide : ∀ index, state.buffer.lookup = some index → index.Wide state.buffer.visible
  plain : state.buffer.distinct = false → state.store.index = none
  gathered : state.buffer.distinct = true → state.buffer.finalized = false →
    ∃ index, state.store.index = some index ∧ state.rows = [] ∧
      (∀ entry ∈ index.toList,
        entry.1.agrees (RowKey.ofValues (entry.2.take state.buffer.visible)) = true) ∧
      state.buffer.rowCount = index.size
  counted : state.buffer.finalized = true ∨ state.buffer.distinct = false →
    state.buffer.rowCount = state.rows.length

theorem Sound.intact (sound : state.Sound) (whole : state.Whole) (lookupWide : state.LookupWide) :
    state.Intact where
  rowsWide := sound.wide
  indexWide := fun index present => (sound.projects index present).wide
  lookupWide := lookupWide
  plain := sound.plain
  gathered := by
    intro distinct unfinalized
    obtain ⟨present, noRows⟩ := whole unfinalized distinct
    obtain ⟨index, held⟩ := Option.isSome_iff_exists.mp present
    exact ⟨index, held, noRows, fun entry => (sound.projects index held).key_agrees,
      sound.counted_index unfinalized distinct held⟩
  counted := by
    intro settled
    cases finalized : state.buffer.finalized with
    | true => exact sound.counted finalized
    | false =>
        have plain : state.buffer.distinct = false := by simpa [finalized] using settled
        exact sound.counted_rows finalized plain

/-- All rows of a result that is not finalized can be gathered. -/
theorem Whole.gathered (whole : state.Whole) (unfinalized : state.buffer.finalized = false) :
    ∃ rows, state.pending? = some rows := by
  cases distinct : state.buffer.distinct with
  | true =>
      obtain ⟨present, _⟩ := whole unfinalized distinct
      obtain ⟨index, held⟩ := Option.isSome_iff_exists.mp present
      exact ⟨index.values, pending?_of_index distinct held⟩
  | false => exact ⟨state.rows, pending?_of_plain distinct⟩

/-! ## What commands keep -/

theorem whole_of_finalized (finalized : state.buffer.finalized = true) : state.Whole :=
  fun unfinalized => by simp [finalized] at unfinalized

theorem Whole.perform (whole : state.Whole) (sound : state.Sound) {command : Command}
    (clean : command = .finalize → ∀ fault, (state.perform settings command).answer ≠ .error fault) :
    (state.perform settings command).state.Whole := by
  by_cases finalizing : command = .finalize
  · have answer := clean finalizing
    subst finalizing
    cases finalized : state.buffer.finalized with
    | true => exact whole_of_finalized (finalized_perform settings finalized .finalize)
    | false =>
        have outcome := sound.finalization settings finalized
        rw [ResultState.perform] at answer ⊢
        generalize state.finalize settings = outcome at outcome answer
        cases outcome with
        | indexMissing => exact absurd rfl (answer _)
        | unordered => exact absurd rfl (answer _)
        | finished => exact whole_of_finalized rfl
  have effect := state.perform_effect settings finalizing
  generalize state.perform settings command = outcome at effect
  cases effect with
  | madeDistinct noRows =>
      intro unfinalized _
      refine ⟨rfl, ?_⟩
      cases distinct : state.buffer.distinct with
      | true => exact (whole unfinalized distinct).2
      | false =>
          have counted := sound.counted_rows unfinalized distinct
          exact List.eq_nil_of_length_eq_zero (counted.symm.trans noRows)
  | appended row registered context events fillable plain =>
      intro _ distinct
      exact absurd (plain.symm.trans distinct) Bool.false_ne_true
  | put row index registered context events fillable distinct =>
      exact fun unfinalized _ => ⟨rfl, (whole unfinalized distinct).2⟩
  | removed row index fillable distinct =>
      exact fun unfinalized _ => ⟨rfl, (whole unfinalized distinct).2⟩
  | _ => exact whole

theorem Whole.moves (whole : state.Whole) (sound : state.Sound) (settings : Settings)
    (count : Nat) : (state.performAll settings (List.replicate count .next)).2.Whole := by
  induction count generalizing state with
  | zero => exact whole
  | succ count ih =>
      have moved : (state.perform settings .next).state.Whole := whole.perform sound nofun
      exact ih moved (sound.perform settings .next)

theorem LookupWide.perform (lookupWide : state.LookupWide) (sound : state.Sound)
    (settings : Settings) (command : Command) :
    (state.perform settings command).state.LookupWide := by
  have built : ∀ index, ContentIndex.ofRows state.buffer.visible state.rows = .ok index →
      index.Wide state.buffer.visible := by
    intro index made
    have yields := ContentIndex.ofRows_projects state.buffer.visible state.rows
    rw [made] at yields
    exact yields.wide
  have reached := sound.reached settings command
  generalize (state.perform settings command).state = after at reached
  cases reached with
  | effected _ outcome _ effect =>
      cases effect with
      | answeredFromRows row index events missing made =>
          intro other present
          cases present
          exact built index made
      | builtIndex index events missing made =>
          intro other present
          cases present
          exact built index made
      | _ => exact lookupWide
  | _ => exact lookupWide

/-! ## What commands are refused for -/

/-- The operation fails only with faults that are accounted for. -/
def FailsOnly {σ α : Type} (accounted : Fault → Prop) (outcome : Outcome σ α) : Prop :=
  Yields accounted (fun _ => True) outcome.answer

theorem FailsOnly.accounts {σ α : Type} {accounted : Fault → Prop} {outcome : Outcome σ α}
    (fails : FailsOnly accounted outcome) {fault : Fault} (refused : outcome.answer = .error fault) :
    accounted fault := by
  unfold FailsOnly at fails
  rwa [refused] at fails

theorem FailsOnly.mapAnswer {α β : Type} {accounted : Fault → Prop}
    {outcome : Outcome ResultState α} (fails : FailsOnly accounted outcome)
    (view : α → ResultState → β) : FailsOnly accounted (outcome.mapAnswer view) := by
  obtain ⟨answer, after, events⟩ := outcome
  cases answer with
  | error fault => exact fails
  | ok answer => trivial

theorem setDistinct_fails (state : ResultState) :
    FailsOnly (fun fault => ¬ fault.Internal) state.setDistinct := by
  unfold setDistinct
  split
  · exact id
  split
  · exact id
  · trivial

theorem Whole.add_fails (whole : state.Whole) (row : Row) :
    FailsOnly (fun fault => ¬ fault.Internal) (state.add row) := by
  unfold add
  split
  · exact id
  rename_i wide
  split
  · exact id
  rename_i unfinalized
  split
  · exact id
  split
  · rename_i distinct
    obtain ⟨present, _⟩ := whole (Bool.eq_false_iff.mpr unfinalized) distinct
    obtain ⟨index, held⟩ := Option.isSome_iff_exists.mp present
    have key : RowKey.ofVisible row.detached state.buffer.visible = .ok (state.keyOf row) :=
      if_pos (by rw [Row.length_detached]; omega)
    simp only [putDistinct, key, held]
    split
    · exact id
    · trivial
  · unfold append
    split
    · exact id
    · trivial

theorem Whole.remove_fails (whole : state.Whole) (row : Row) :
    FailsOnly (fun fault => ¬ fault.Internal) (state.remove row) := by
  unfold remove
  split
  · exact id
  rename_i distinct
  split
  · exact id
  rename_i unfinalized
  split
  · exact id
  · obtain ⟨present, _⟩ := whole (Bool.eq_false_iff.mpr unfinalized) (by simpa using distinct)
    obtain ⟨index, held⟩ := Option.isSome_iff_exists.mp present
    rw [held]
    trivial

theorem Sound.probe_fails (sound : state.Sound) (settings : Settings) {command : Command}
    (probes : command.probes = true) :
    FailsOnly (fun fault => ¬ fault.Internal) (state.perform settings command) := by
  cases present : state.membershipIndex with
  | some index =>
      rw [perform_probe_of_present settings probes present]
      trivial
  | none =>
      have missing : state.hasIndex = false := by rw [hasIndex_eq, present]; rfl
      obtain ⟨index, made, _⟩ := sound.ofRows
      rw [perform_probe_of_missing settings probes missing made]
      trivial

theorem Sound.next_fails (sound : state.Sound) (positioned : state.buffer.Positioned) :
    FailsOnly (fun fault => ¬ fault.Internal) state.next := by
  have low := positioned.low
  unfold next
  split
  · exact id
  rename_i finalized
  have counted := sound.counted (by simpa using finalized)
  split
  · trivial
  dsimp only
  split
  · rename_i ahead within
    have held : (state.buffer.position + 1).toNat < state.store.rows.size := by omega
    rw [if_pos held]
    trivial
  · trivial

theorem Whole.perform_fails (whole : state.Whole) (sound : state.Sound)
    (positioned : state.buffer.Positioned) (settings : Settings) {command : Command}
    (unfinalizing : command ≠ .finalize) :
    FailsOnly (fun fault => ¬ fault.Internal) (state.perform settings command) := by
  cases command with
  | finalize => exact absurd rfl unfinalizing
  | setDistinct => exact state.setDistinct_fails.mapAnswer _
  | add row => exact (whole.add_fails row).mapAnswer _
  | remove row => exact (whole.remove_fails row).mapAnswer _
  | contains row => exact sound.probe_fails settings rfl
  | buildIndex => exact sound.probe_fails settings rfl
  | next => exact (sound.next_fails positioned).mapAnswer _
  | close =>
      refine FailsOnly.mapAnswer ?_ _
      unfold close
      split <;> trivial
  | _ => trivial

/-- A sort key names a column that is not visible. -/
def SortsHidden (state : ResultState) : Prop :=
  ∃ order, state.buffer.order = some order ∧ ∃ key ∈ order.keys, state.buffer.visible ≤ key.column

theorem arrangement_fails (state : ResultState) (settings : Settings)
    (wide : ∀ row ∈ state.rows, state.buffer.visible ≤ row.length) :
    Yields (fun fault => fault.Internal → fault = .sortKeyOutsideRow ∧ state.SortsHidden)
      (fun _ => True) (state.arrangement settings) := by
  unfold arrangement
  split
  · trivial
  · rename_i order ordering
    have sorting : ∀ count, Yields
        (fun fault => fault.Internal → fault = .sortKeyOutsideRow ∧ state.SortsHidden)
        (fun _ => True) (order.sortLeading settings count state.rows) := by
      intro count
      refine (order.sortLeading_yields settings count state.rows).mono fun fault failed internal => ?_
      rcases failed with unreadable | met
      · unfold Settings.integer at unreadable
        split at unreadable
        · cases unreadable
        · cases unreadable
          exact internal.elim
      · rcases met.cases with ⟨found, expected, rfl⟩ | ⟨rfl, key, listed, row, held, narrow⟩
        · exact internal.elim
        · exact ⟨rfl, order, ordering, key, listed, Nat.le_trans (wide row held) narrow⟩
    unfold orderedRows
    split
    · exact sorting _
    · exact sorting _

theorem Whole.finalize_fails (whole : state.Whole) (sound : state.Sound) (settings : Settings) :
    FailsOnly (fun fault => fault.Internal → fault = .sortKeyOutsideRow ∧ state.SortsHidden)
      (state.finalize settings) := by
  cases finalized : state.buffer.finalized with
  | true =>
      rw [finalize, if_pos finalized]
      trivial
  | false =>
      have outcome := sound.finalization settings finalized
      generalize state.finalize settings = outcome at outcome
      cases outcome with
      | indexMissing missing =>
          obtain ⟨rows, gathered⟩ := whole.gathered finalized
          cases missing.symm.trans gathered
      | unordered pending fault gathered failed =>
          have wide : ∀ row ∈ (state.materialized pending).rows, state.buffer.visible ≤ row.length :=
            fun row held => sound.pending_wide gathered held
          have yields := (state.materialized pending).arrangement_fails settings wide
          rw [failed] at yields
          exact yields
      | finished => trivial

/-! ## Reading one result into another -/

/-- The result is a plain one without a sort order. -/
structure Receiving (state : ResultState) : Prop where
  sound : state.Sound
  plain : state.buffer.distinct = false
  unordered : state.buffer.order = none

theorem Receiving.whole (receiving : state.Receiving) : state.Whole :=
  fun _ distinct => absurd (receiving.plain.symm.trans distinct) Bool.false_ne_true

theorem Receiving.add (receiving : state.Receiving) (settings : Settings) (row : Row) :
    (state.perform settings (.add row)).state.Receiving := by
  have sound := receiving.sound.perform settings (.add row)
  have effect := state.add_effect row
  rw [ResultState.perform] at sound ⊢
  generalize (state.add row).mapAnswer _ = outcome at effect sound
  cases effect with
  | configured _ _ _ _ _ _ configures => cases configures
  | _ => exact ⟨sound, receiving.plain, receiving.unordered⟩

theorem Receiving.transfer (settings : Settings) {count : Nat} {pair : Transfer}
    (receiving : pair.target.Receiving) : (transfer count pair).state.target.Receiving := by
  obtain ⟨_, adds, _, onlyAdd, _, target⟩ := transfer_runs settings count pair
  rw [target]
  refine performAll_holds Receiving (fun command => ∃ row, command = .add row) ?_ receiving onlyAdd
  rintro state command ⟨row, rfl⟩ before
  exact before.add settings row

theorem currentRow_of_next (moved : state.next.answer = .ok true) :
    ∃ row, state.next.state.currentRow = some row := by
  revert moved
  unfold next
  split
  · exact nofun
  split
  · exact nofun
  dsimp only
  split
  · split
    · rename_i held
      exact fun _ => ⟨_, Array.getElem?_eq_getElem held⟩
    · exact nofun
  · exact nofun

theorem transfer_fails (settings : Settings) (count : Nat) (pair : Transfer)
    (sound : pair.source.Sound) (positioned : pair.source.buffer.Positioned)
    (receiving : pair.target.Receiving) :
    FailsOnly (fun fault => ¬ fault.Internal) (transfer count pair) := by
  induction count generalizing pair with
  | zero => trivial
  | succ count ih =>
      have nextFails := sound.next_fails positioned
      have stillSound : pair.source.next.state.Sound := by
        have after := sound.perform settings .next
        rwa [ResultState.perform, state_mapAnswer] at after
      simp only [FailsOnly, ResultState.transfer]
      cases answered : pair.source.next.answer with
      | error fault => exact nextFails.accounts answered
      | ok advanced =>
          cases advanced with
          | false => trivial
          | true =>
              obtain ⟨row, shown⟩ := currentRow_of_next answered
              have addFails := receiving.whole.add_fails (row.take pair.source.buffer.visible)
              have stillReceiving := receiving.add settings (row.take pair.source.buffer.visible)
              rw [ResultState.perform, state_mapAnswer] at stillReceiving
              rw [shown]
              dsimp only
              cases added : (pair.target.add (row.take pair.source.buffer.visible)).answer with
              | error fault => exact addFails.accounts added
              | ok _ =>
                  exact ih ⟨pair.source.next.state, _⟩ stillSound (next_positioned positioned)
                    stillReceiving

theorem readInto_fails (settings : Settings) (count : Nat) (pair : Transfer)
    (sound : pair.source.Sound) (positioned : pair.source.buffer.Positioned)
    (receiving : pair.target.Receiving) :
    FailsOnly (fun fault => ¬ fault.Internal) (readInto settings count pair) := by
  have transferred := transfer_fails settings count pair sound positioned receiving
  have received : (transfer count pair).state.target.Receiving := receiving.transfer settings
  unfold readInto
  generalize transfer count pair = outcome at transferred received
  obtain ⟨answer, moved, events⟩ := outcome
  cases answer with
  | error fault => exact transferred
  | ok _ =>
      have finalizing := received.whole.finalize_fails received.sound settings
      refine Yields.mono finalizing fun fault failed internal => ?_
      obtain ⟨_, order, ordering, _⟩ := failed internal
      cases received.unordered.symm.trans ordering

end ResultState

end QueryResult
