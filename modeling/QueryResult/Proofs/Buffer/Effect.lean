import QueryResult.Buffer.Command

/-!
# What commands do

`Effect` lists the outcomes that a command other than `finalize` can have, with
what is known of the state before. Invariants of runs are proved from it, one
case for each outcome. A refused command leaves the state as it is.
-/

set_option autoImplicit false

namespace QueryResult

theorem Row.length_detached (row : Row) : row.detached.length = row.length :=
  List.length_map _

/-- The command does nothing but set how a result is to be built. -/
def Command.configures : Command → Bool
  | .setThreshold _ | .setRandomAccess | .setOrder _ | .setOffset _ | .setLimit _
  | .setFetchSize _ => true
  | _ => false

namespace ResultState

variable {state : ResultState}

/-- Rows can be added to the state and removed from it. -/
structure Fillable (state : ResultState) : Prop where
  unfinalized : state.buffer.finalized = false
  unshared : state.store.frozen = false

/-- The key under which a distinct result holds a row. -/
def keyOf (state : ResultState) (row : Row) : RowKey :=
  RowKey.ofValues (row.detached.take state.buffer.visible)

/-- The outcomes of commands. -/
inductive Effect (state : ResultState) : Command → Outcome ResultState Answer → Prop
  | refused (command : Command) (fault : Fault) : Effect state command (.refuse fault state)
  | configured (command : Command) (threshold : UInt64) (order : Option OrderBy)
      (offset : UInt64) (limit : Int64) (randomAccess : Bool)
      (configures : command.configures = true) :
      Effect state command
        (.accept .done
          { state with
            buffer :=
              { state.buffer with
                threshold := threshold
                order := order
                offset := offset
                limit := limit
                randomAccess := randomAccess } }
          [])
  | madeDistinct (noRows : state.buffer.rowCount = 0) (unshared : state.store.frozen = false) :
      Effect state .setDistinct
        (.accept .done
          { state with
            store := { state.store with index := some .empty }
            buffer := { state.buffer with distinct := true } }
          [])
  | appended (row : Row) (registered : List Nat) (context : Option Context) (events : List Event)
      (fillable : state.Fillable) (plain : state.buffer.distinct = false)
      (wide : state.buffer.visible ≤ row.length)
      (fits : state.store.rows.size + 1 ≤ state.buffer.threshold.toNat) :
      Effect state (.add row)
        (.accept .done
          { store := { state.store with rows := state.store.rows.push row.detached }
            buffer :=
              { state.buffer with
                registered := registered
                rowCount := state.buffer.rowCount + 1 }
            context := context }
          events)
  | put (row : Row) (index : ContentIndex) (registered : List Nat) (context : Option Context)
      (events : List Event) (fillable : state.Fillable) (distinct : state.buffer.distinct = true)
      (wide : state.buffer.visible ≤ row.length) (held : state.store.index = some index)
      (fits : (index.insert (state.keyOf row) row.detached).1 = true →
        (index.insert (state.keyOf row) row.detached).2.size ≤ state.buffer.threshold.toNat) :
      Effect state (.add row)
        (.accept .done
          { store :=
              { state.store with
                index := some (index.insert (state.keyOf row) row.detached).2 }
            buffer :=
              { state.buffer with
                registered := registered
                rowCount := (index.insert (state.keyOf row) row.detached).2.size }
            context := context }
          events)
  | removed (row : Row) (index : ContentIndex) (fillable : state.Fillable)
      (distinct : state.buffer.distinct = true) (held : state.store.index = some index) :
      Effect state (.remove row)
        (.accept .done
          { state with
            store := { state.store with index := some (index.erase (RowKey.ofRow row)).2 }
            buffer := { state.buffer with rowCount := (index.erase (RowKey.ofRow row)).2.size } }
          [])
  | answered (row : Row) (index : ContentIndex) (found : state.membershipIndex = some index) :
      Effect state (.contains row)
        (.accept (.flag (index.contains (RowKey.ofRow row))) state [])
  | answeredFromRows (row : Row) (index : ContentIndex) (events : List Event)
      (missing : state.hasIndex = false)
      (made : ContentIndex.ofRows state.buffer.visible state.rows = .ok index) :
      Effect state (.contains row)
        (.accept (.flag (index.contains (RowKey.ofRow row)))
          { state with buffer := { state.buffer with lookup := some index } } events)
  | keptIndex (present : state.hasIndex = true) :
      Effect state .buildIndex (.accept .done state [])
  | builtIndex (index : ContentIndex) (events : List Event) (missing : state.hasIndex = false)
      (made : ContentIndex.ofRows state.buffer.visible state.rows = .ok index) :
      Effect state .buildIndex
        (.accept .done { state with buffer := { state.buffer with lookup := some index } } events)
  | rewound : Effect state .rewind (.accept .done { state with buffer := state.buffer.rewound } [])
  | moved (answer : Answer) (position : Int) (current : Option Nat)
      (finalized : state.buffer.finalized = true) :
      Effect state .next
        (.accept answer
          { state with
            buffer := { state.buffer with position := position, current := current } }
          [])
  | closed (current : Option Nat) (registered : List Nat) (context : Option Context) :
      Effect state .close
        (.accept .done
          { state with
            buffer :=
              { state.buffer with closed := true, current := current, registered := registered }
            context := context }
          [])

theorem registerCopies_eq (state : ResultState) (copies : List Value) :
    ∃ registered context events,
      state.registerCopies copies =
        ({ state with
            buffer := { state.buffer with registered := registered }
            context := context },
          events) := by
  cases held : state.context with
  | none =>
      refine ⟨state.buffer.registered, none, [], ?_⟩
      simp only [registerCopies, held]
      rw [← held]
  | some context =>
      exact ⟨state.buffer.registered ++ (context.keepAll copies).1,
        some (context.keepAll copies).2.1, (context.keepAll copies).2.2,
        by simp only [registerCopies, held]⟩

theorem append_effect (state : ResultState) (row : Row) (fillable : state.Fillable)
    (plain : state.buffer.distinct = false) (wide : state.buffer.visible ≤ row.length) :
    state.Effect (.add row) ((state.append row).mapAnswer fun _ _ => .done) := by
  unfold append
  by_cases full : state.buffer.threshold.toNat < state.store.rows.size + 1
  · rw [if_pos full]
    exact .refused _ _
  · obtain ⟨registered, context, events, copied⟩ := state.registerCopies_eq row.copies
    rw [if_neg full, copied]
    exact .appended row registered context events fillable plain wide (by omega)

theorem putDistinct_effect (state : ResultState) (row : Row) (fillable : state.Fillable)
    (distinct : state.buffer.distinct = true) (wide : state.buffer.visible ≤ row.length) :
    state.Effect (.add row) ((state.putDistinct row).mapAnswer fun _ _ => .done) := by
  have key : RowKey.ofVisible row.detached state.buffer.visible = .ok (state.keyOf row) := by
    unfold RowKey.ofVisible
    rw [Row.length_detached, if_pos wide]
    rfl
  simp only [putDistinct, key]
  cases held : state.store.index with
  | none => exact .refused _ _
  | some index =>
      dsimp only
      by_cases full :
          (index.insert (state.keyOf row) row.detached).1 = true ∧
            state.buffer.threshold.toNat <
              (index.insert (state.keyOf row) row.detached).2.size
      · rw [if_pos full]
        exact .refused _ _
      · obtain ⟨registered, context, events, copied⟩ := state.registerCopies_eq row.copies
        rw [if_neg full, copied]
        exact .put row index registered context events fillable distinct wide held
          fun new => Nat.not_lt.mp fun exceeding => full ⟨new, exceeding⟩

theorem add_effect (state : ResultState) (row : Row) :
    state.Effect (.add row) ((state.add row).mapAnswer fun _ _ => .done) := by
  unfold add
  by_cases narrow : row.length < state.buffer.visible
  · rw [if_pos narrow]
    exact .refused _ _
  rw [if_neg narrow]
  by_cases finalized : state.buffer.finalized = true
  · rw [if_pos finalized]
    exact .refused _ _
  rw [if_neg finalized]
  by_cases shared : state.store.frozen = true
  · rw [if_pos shared]
    exact .refused _ _
  rw [if_neg shared]
  have fillable : state.Fillable :=
    ⟨Bool.eq_false_iff.mpr finalized, Bool.eq_false_iff.mpr shared⟩
  by_cases distinct : state.buffer.distinct = true
  · rw [if_pos distinct]
    exact state.putDistinct_effect row fillable distinct (by omega)
  · rw [if_neg distinct]
    exact state.append_effect row fillable (Bool.eq_false_iff.mpr distinct) (by omega)

theorem remove_effect (state : ResultState) (row : Row) :
    state.Effect (.remove row) ((state.remove row).mapAnswer fun _ _ => .done) := by
  unfold remove
  by_cases distinct : state.buffer.distinct = true
  · rw [if_neg (by simp [distinct])]
    by_cases finalized : state.buffer.finalized = true
    · rw [if_pos finalized]
      exact .refused _ _
    rw [if_neg finalized]
    by_cases shared : state.store.frozen = true
    · rw [if_pos shared]
      exact .refused _ _
    rw [if_neg shared]
    cases held : state.store.index with
    | none => exact .refused _ _
    | some index =>
        exact .removed row index ⟨Bool.eq_false_iff.mpr finalized, Bool.eq_false_iff.mpr shared⟩
          distinct held
  · rw [if_pos (by simp [distinct])]
    exact .refused _ _

theorem setDistinct_effect (state : ResultState) :
    state.Effect .setDistinct (state.setDistinct.mapAnswer fun _ _ => .done) := by
  unfold setDistinct
  by_cases rows : 0 < state.buffer.rowCount
  · rw [if_pos rows]
    exact .refused _ _
  rw [if_neg rows]
  by_cases shared : state.store.frozen = true
  · rw [if_pos shared]
    exact .refused _ _
  rw [if_neg shared]
  exact .madeDistinct (by omega) (Bool.eq_false_iff.mpr shared)

theorem membershipIndex_of_hasIndex (present : state.hasIndex = true) :
    ∃ index, state.membershipIndex = some index := by
  unfold hasIndex at present
  unfold membershipIndex
  cases held : state.store.index with
  | some index => exact ⟨index, rfl⟩
  | none =>
      simp only [held, Option.isSome_none, Bool.false_or] at present
      exact Option.isSome_iff_exists.mp present

theorem index_eq_none_of_not_hasIndex (missing : state.hasIndex = false) :
    state.store.index = none ∧ state.buffer.lookup = none := by
  simpa [hasIndex] using missing

theorem buildIndex_effect (state : ResultState) :
    state.Effect .buildIndex (state.buildIndex.mapAnswer fun _ _ => .done) := by
  unfold buildIndex
  by_cases present : state.hasIndex = true
  · simp only [present, if_true]
    exact .keptIndex present
  · simp only [present, Bool.false_eq_true, if_false]
    cases made : ContentIndex.ofRows state.buffer.visible state.rows with
    | error fault => exact .refused _ _
    | ok index => exact .builtIndex index _ (Bool.eq_false_iff.mpr present) made

theorem contains_effect (state : ResultState) (row : Row) :
    state.Effect (.contains row)
      ((state.contains row).mapAnswer fun found _ => .flag found) := by
  unfold contains buildIndex
  by_cases present : state.hasIndex = true
  · obtain ⟨index, found⟩ := membershipIndex_of_hasIndex present
    simp only [present, if_true, Outcome.andThen_accept, found]
    exact .answered row index found
  · have missing := Bool.eq_false_iff.mpr present
    simp only [present, Bool.false_eq_true, if_false]
    cases made : ContentIndex.ofRows state.buffer.visible state.rows with
    | error fault => exact .refused _ _
    | ok index =>
        simp only [Outcome.andThen_accept, membershipIndex, (index_eq_none_of_not_hasIndex missing).1]
        exact .answeredFromRows row index _ missing made

theorem next_effect (state : ResultState) :
    state.Effect .next
      (state.next.mapAnswer fun advanced after => .step advanced after.currentRow) := by
  unfold next
  by_cases finalized : state.buffer.finalized = true
  · rw [if_neg (by simp [finalized])]
    split
    · exact .moved _ state.buffer.position state.buffer.current finalized
    · dsimp only
      split
      · split
        · exact .moved _ _ _ finalized
        · exact .refused _ _
      · exact .moved _ _ _ finalized
  · rw [if_pos (by simp [finalized])]
    exact .refused _ _

theorem close_effect (state : ResultState) :
    state.Effect .close (state.close.mapAnswer fun _ _ => .done) := by
  unfold close
  by_cases closed : state.buffer.closed = true
  · simp only [closed, if_true]
    have unchanged : state.Effect .close _ :=
      .closed state.buffer.current state.buffer.registered state.context
    rwa [← closed] at unchanged
  · simp only [closed, Bool.false_eq_true, if_false]
    exact .closed _ _ _

/-- Every command other than `finalize` has one of the listed outcomes. -/
theorem perform_effect (settings : Settings) (state : ResultState) {command : Command}
    (other : command ≠ .finalize) : state.Effect command (state.perform settings command) := by
  cases command with
  | finalize => exact absurd rfl other
  | setThreshold rows => exact .configured _ _ _ _ _ _ rfl
  | setRandomAccess => exact .configured _ _ _ _ _ _ rfl
  | setOrder order => exact .configured _ _ _ _ _ _ rfl
  | setOffset rows => exact .configured _ _ _ _ _ _ rfl
  | setLimit rows => exact .configured _ _ _ _ _ _ rfl
  | setFetchSize rows => exact .configured _ _ _ _ _ _ rfl
  | setDistinct => exact state.setDistinct_effect
  | add row => exact state.add_effect row
  | remove row => exact state.remove_effect row
  | contains row => exact state.contains_effect row
  | buildIndex => exact state.buildIndex_effect
  | rewind => exact .rewound
  | next => exact state.next_effect
  | close => exact state.close_effect

end ResultState

end QueryResult
