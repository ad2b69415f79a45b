import QueryResult.Proofs.Buffer.DistinctResult
import QueryResult.Proofs.Buffer.Integrity

/-!
# The row threshold

A row is refused for the threshold exactly if the result would hold more rows
with it than before, and more than the threshold allows. A row that takes the
place of another one is never refused for it. No other command lets a result
grow, so its count stays within the threshold unless the threshold is set below
it.
-/

set_option autoImplicit false

namespace QueryResult

/-- The result has no more rows than its threshold allows. -/
def Buffer.Within (buffer : Buffer) : Prop :=
  buffer.rowCount ≤ buffer.threshold.toNat

namespace ResultState

variable {settings : Settings} {state : ResultState}

/-- The rows that a result has been given, until it is finalized. -/
def heldRows (state : ResultState) : List Row :=
  state.pending?.getD []

/-- The row would take the place of one that a distinct result holds. -/
def Replaces (state : ResultState) (row : Row) : Prop :=
  state.buffer.distinct = true ∧ ∃ held ∈ state.heldRows,
    sameContent (held.take state.buffer.visible) (row.take state.buffer.visible) = true

instance (state : ResultState) (row : Row) : Decidable (state.Replaces row) :=
  inferInstanceAs (Decidable (_ ∧ _))

/-- The number of rows that the result holds once it is given the row. -/
def countWith (state : ResultState) (row : Row) : Nat :=
  if state.Replaces row then state.heldRows.length else state.heldRows.length + 1

/-- With the row, the result would hold more rows than before and more than its threshold. -/
def Overflows (state : ResultState) (row : Row) : Prop :=
  state.heldRows.length < state.countWith row ∧
    state.buffer.threshold.toNat < state.countWith row

theorem length_heldRows_of_plain (plain : state.buffer.distinct = false) :
    state.heldRows.length = state.store.rows.size := by
  rw [heldRows, pending?_of_plain plain]
  rfl

theorem heldRows_of_index (distinct : state.buffer.distinct = true) {index : ContentIndex}
    (present : state.store.index = some index) : state.heldRows = index.values := by
  rw [heldRows, pending?_of_index distinct present]
  rfl

theorem length_heldRows_of_index (distinct : state.buffer.distinct = true) {index : ContentIndex}
    (present : state.store.index = some index) : state.heldRows.length = index.size := by
  rw [heldRows_of_index distinct present, index.length_values]

theorem Replaces.not_overflows {row : Row} (replaces : state.Replaces row) :
    ¬ state.Overflows row := by
  rintro ⟨grows, _⟩
  rw [countWith, if_pos replaces] at grows
  exact Nat.lt_irrefl _ grows

/-! ## Rows that are added -/

theorem Whole.counted_held (whole : state.Whole) (sound : state.Sound)
    (unfinalized : state.buffer.finalized = false) :
    state.buffer.rowCount = state.heldRows.length := by
  obtain ⟨rows, gathered⟩ := whole.gathered unfinalized
  rw [heldRows, gathered, sound.pending unfinalized rows gathered]
  rfl

theorem Sound.contains_key_iff (sound : state.Sound) (distinct : state.buffer.distinct = true)
    {index : ContentIndex} (present : state.store.index = some index) (row : Row) :
    index.contains (state.keyOf row) = true ↔ state.Replaces row := by
  have projects := sound.projects index present
  have answers := projects.answers (.refl _) (row.detached.take state.buffer.visible)
  unfold Replaces
  rw [heldRows_of_index distinct present, keyOf]
  refine answers.trans ?_
  simp only [distinct, true_and, ← RowContent.of_eq_of_iff, RowContent.of_detached_take]

theorem perform_add_of_fillable (fillable : state.Fillable) {row : Row}
    (wide : state.buffer.visible ≤ row.length) :
    state.perform settings (.add row) =
      (if state.buffer.distinct then state.putDistinct row else state.append row).mapAnswer
        fun _ _ => .done := by
  rw [ResultState.perform, add, if_neg (by omega), if_neg (by simp [fillable.unfinalized]),
    if_neg (by simp [fillable.unshared])]

theorem append_guarded (plain : state.buffer.distinct = false) (row : Row) :
    (state.Overflows row → state.append row = .refuse (.overThreshold state.buffer.threshold) state) ∧
      (¬ state.Overflows row → (state.append row).answer = .ok ()) := by
  have held := length_heldRows_of_plain plain
  have grown : state.countWith row = state.store.rows.size + 1 := by
    rw [countWith, if_neg (by simp [Replaces, plain]), held]
  unfold append Overflows
  rw [held, grown]
  constructor
  · rintro ⟨_, full⟩
    rw [if_pos full]
  · intro fits
    rw [if_neg fun full => fits ⟨Nat.lt_succ_self _, full⟩]
    rfl

theorem Sound.putDistinct_guarded (sound : state.Sound) (distinct : state.buffer.distinct = true)
    {index : ContentIndex} (present : state.store.index = some index) {row : Row}
    (wide : state.buffer.visible ≤ row.length) :
    (state.Overflows row →
        state.putDistinct row = .refuse (.overThreshold state.buffer.threshold) state) ∧
      (¬ state.Overflows row → (state.putDistinct row).answer = .ok ()) := by
  have key : RowKey.ofVisible row.detached state.buffer.visible = .ok (state.keyOf row) :=
    if_pos (by rw [Row.length_detached]; exact wide)
  have held := length_heldRows_of_index distinct present
  simp only [putDistinct, key, present]
  by_cases replaces : state.Replaces row
  · have contained := (sound.contains_key_iff distinct present row).mpr replaces
    obtain ⟨old, _⟩ := ContentIndex.insert_of_contains contained row.detached
    rw [if_neg (by simp [old])]
    exact ⟨fun overflows => absurd overflows replaces.not_overflows, fun _ => rfl⟩
  · have missing := mt (sound.contains_key_iff distinct present row).mp replaces
    obtain ⟨new, size⟩ := ContentIndex.insert_of_not_contains missing row.detached
    rw [Overflows, countWith, if_neg replaces, held, new, size]
    constructor
    · rintro ⟨_, full⟩
      rw [if_pos ⟨rfl, full⟩]
    · intro fits
      rw [if_neg fun full => fits ⟨Nat.lt_succ_self _, full.2⟩]
      rfl

/-- A row that is accepted is held, in the place of another one or besides all others. -/
theorem Sound.counted_of_accepted (sound : state.Sound) {row : Row}
    {outcome : Outcome ResultState Answer} (effect : state.Effect (.add row) outcome)
    (accepted : outcome.answer = .ok .done) :
    outcome.state.heldRows.length = state.countWith row ∧
      outcome.state.buffer.rowCount = state.countWith row := by
  cases effect with
  | refused => cases accepted
  | configured _ _ _ _ _ _ configures => cases configures
  | appended _ registered context events fillable plain =>
      have grown : state.countWith row = state.store.rows.size + 1 := by
        rw [countWith, if_neg (by simp [Replaces, plain]), length_heldRows_of_plain plain]
      rw [grown]
      refine ⟨?_, congrArg (· + 1) (sound.counted_rows fillable.unfinalized plain)⟩
      refine (length_heldRows_of_plain ?_).trans (Array.size_push _)
      exact plain
  | put _ index registered context events fillable distinct wide present =>
      have grown : (index.insert (state.keyOf row) row.detached).2.size = state.countWith row := by
        rw [countWith, length_heldRows_of_index distinct present]
        by_cases replaces : state.Replaces row
        · have contained := (sound.contains_key_iff distinct present row).mpr replaces
          rw [if_pos replaces, (ContentIndex.insert_of_contains contained _).2]
        · have missing := mt (sound.contains_key_iff distinct present row).mp replaces
          rw [if_neg replaces, (ContentIndex.insert_of_not_contains missing _).2]
      refine ⟨?_, grown⟩
      rw [← grown]
      refine length_heldRows_of_index ?_ rfl
      exact distinct

theorem Whole.add_guarded (whole : state.Whole) (sound : state.Sound)
    (unfinalized : state.buffer.finalized = false) (settings : Settings) {row : Row}
    (wide : state.buffer.visible ≤ row.length) :
    (state.Overflows row →
        state.perform settings (.add row) =
          .refuse (.overThreshold state.buffer.threshold) state) ∧
      (¬ state.Overflows row →
        (state.perform settings (.add row)).answer = .ok .done ∧
          (state.perform settings (.add row)).state.heldRows.length = state.countWith row ∧
          (state.perform settings (.add row)).state.buffer.rowCount = state.countWith row) := by
  have guarded : (state.Overflows row → (if state.buffer.distinct then state.putDistinct row
        else state.append row) = .refuse (.overThreshold state.buffer.threshold) state) ∧
      (¬ state.Overflows row → (if state.buffer.distinct then state.putDistinct row
        else state.append row).answer = .ok ()) := by
    cases distinct : state.buffer.distinct with
    | true =>
        obtain ⟨present, _⟩ := whole unfinalized distinct
        obtain ⟨index, held⟩ := Option.isSome_iff_exists.mp present
        exact sound.putDistinct_guarded distinct held wide
    | false => exact append_guarded distinct row
  have fillable := sound.fillable unfinalized
  constructor
  · intro overflows
    rw [perform_add_of_fillable fillable wide, guarded.1 overflows]
    rfl
  · intro fits
    have accepted : (state.perform settings (.add row)).answer = .ok .done := by
      have answer := guarded.2 fits
      rw [perform_add_of_fillable fillable wide]
      generalize (if state.buffer.distinct then state.putDistinct row
        else state.append row) = outcome at answer
      obtain ⟨_, after, events⟩ := outcome
      cases answer
      rfl
    exact ⟨accepted, sound.counted_of_accepted (state.perform_effect settings nofun) accepted⟩

/-- Adding a row takes the count above what it was only up to the threshold. -/
theorem Sound.add_bounded (sound : state.Sound) {row : Row} {outcome : Outcome ResultState Answer}
    (effect : state.Effect (.add row) outcome) :
    outcome.state.buffer.rowCount ≤ max state.buffer.rowCount state.buffer.threshold.toNat := by
  cases effect with
  | refused => exact Nat.le_max_left _ _
  | configured _ _ _ _ _ _ configures => cases configures
  | appended _ registered context events fillable plain wide fits =>
      have counted := sound.counted_rows fillable.unfinalized plain
      refine Nat.le_trans ?_ (Nat.le_max_right _ _)
      exact counted ▸ fits
  | put _ index registered context events fillable distinct wide present fits =>
      have counted := sound.counted_index fillable.unfinalized distinct present
      by_cases contained : index.contains (state.keyOf row) = true
      · have size := (ContentIndex.insert_of_contains contained row.detached).2
        exact Nat.le_trans (Nat.le_of_eq (size.trans counted.symm)) (Nat.le_max_left _ _)
      · have new := (ContentIndex.insert_of_not_contains contained row.detached).1
        exact Nat.le_trans (fits new) (Nat.le_max_right _ _)

/-! ## Counts within the threshold -/

/-- No command takes the count above a bound that is not below the threshold. -/
theorem Sound.perform_rowCount_le (sound : state.Sound) {bound : Nat}
    (within : state.buffer.rowCount ≤ bound) (allowed : state.buffer.threshold.toNat ≤ bound)
    (settings : Settings) (command : Command) :
    (state.perform settings command).state.buffer.rowCount ≤ bound := by
  have reached := sound.reached settings command
  generalize (state.perform settings command).state = after at reached
  cases reached with
  | effected _ outcome _ effect =>
      have again := effect
      cases effect with
      | removed row index fillable distinct present =>
          have counted := sound.counted_index fillable.unfinalized distinct present
          have smaller := index.size_erase_le (RowKey.ofRow row)
          exact Nat.le_trans (smaller.trans (Nat.le_of_eq counted.symm)) within
      | appended | put =>
          exact Nat.le_trans (sound.add_bounded again) (Nat.max_le.mpr ⟨within, allowed⟩)
      | _ => exact within
  | finished pending ordered unfinalized gathered rearranged =>
      -- The window is a part of what was pending.
      calc
        (window state.buffer.offset state.buffer.limit ordered).length ≤ ordered.length :=
          (window_sublist _ _ ordered).length_le
        _ = pending.length := rearranged.length_eq
        _ = state.buffer.rowCount := (sound.pending unfinalized pending gathered).symm
        _ ≤ bound := within
  | _ => exact within

theorem Sound.perform_within (sound : state.Sound) (within : state.buffer.Within)
    (settings : Settings) {command : Command}
    (raises : ∀ rows, command = .setThreshold rows → state.buffer.rowCount ≤ rows.toNat) :
    (state.perform settings command).state.buffer.Within := by
  by_cases configures : command.configures = true
  · cases command with
    | setThreshold rows => exact raises rows rfl
    | setRandomAccess | setOrder | setOffset | setLimit | setFetchSize => exact within
    | _ => cases configures
  have sameThreshold : (state.perform settings command).state.buffer.threshold =
      state.buffer.threshold := by
    have reached := sound.reached settings command
    generalize (state.perform settings command).state = after at reached
    cases reached with
    | effected _ outcome _ effect =>
        cases effect with
        | configured _ _ _ _ _ _ configured => exact absurd configured configures
        | _ => rfl
    | _ => rfl
  rw [Buffer.Within, sameThreshold]
  exact sound.perform_rowCount_le within (Nat.le_refl _) settings command

theorem Sound.performAll_within (sound : state.Sound) (within : state.buffer.Within)
    (settings : Settings) {commands : List Command}
    (keeps : ∀ command ∈ commands, ∀ rows, command ≠ .setThreshold rows) :
    (state.performAll settings commands).2.buffer.Within := by
  have both : (state.performAll settings commands).2.Sound ∧
      (state.performAll settings commands).2.buffer.Within :=
    performAll_holds (fun after => after.Sound ∧ after.buffer.Within)
      (fun command => ∀ rows, command ≠ .setThreshold rows)
      (fun _ command keeps ⟨sound, within⟩ => ⟨sound.perform settings command,
        sound.perform_within within settings fun rows sets => absurd sets (keeps rows)⟩)
      ⟨sound, within⟩ keeps
  exact both.2

end ResultState

end QueryResult
