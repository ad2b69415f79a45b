import QueryResult.Proofs.Buffer.Membership

/-!
# What operations do not look at

Few operations look at the private index of a buffer, at the number of its store
or at its context. The others commute with every change of the three: they give
the same answer, and make of the changed state what they make of the state, with
the same change.
-/

set_option autoImplicit false

namespace QueryResult

namespace Outcome

variable {σ α β : Type}

/-- The outcome with its state changed. -/
def mapState (change : σ → σ) (outcome : Outcome σ α) : Outcome σ α :=
  ⟨outcome.answer, change outcome.state, outcome.events⟩

theorem mapState_andThen {change : σ → σ} {second : α → σ → Outcome σ β} (first : Outcome σ α)
    (commutes : ∀ answer state, second answer (change state) =
      (second answer state).mapState change) :
    (first.mapState change).andThen second = (first.andThen second).mapState change := by
  obtain ⟨answer, state, events⟩ := first
  cases answer with
  | error fault => rfl
  | ok answer =>
      simp only [mapState, andThen, commutes]

theorem mapState_mapAnswer {change : σ → σ} {view : α → σ → β} (outcome : Outcome σ α)
    (unseen : ∀ answer state, view answer (change state) = view answer state) :
    (outcome.mapState change).mapAnswer view = (outcome.mapAnswer view).mapState change := by
  obtain ⟨answer, state, events⟩ := outcome
  cases answer with
  | error fault => rfl
  | ok answer => simp only [mapState, mapAnswer, unseen]

end Outcome

/-- A change of the private index, of the number of the store, and of the context. -/
structure Relabeling where
  lookup : Option ContentIndex → Option ContentIndex
  store : Nat → Nat
  context : Option Context → Option Context

namespace ResultState

variable {settings : Settings} {state : ResultState}

def relabel (labels : Relabeling) (state : ResultState) : ResultState :=
  { state with
    buffer :=
      { state.buffer with
        lookup := labels.lookup state.buffer.lookup
        store := labels.store state.buffer.store }
    context := labels.context state.context }

theorem setDistinct_relabel (labels : Relabeling) :
    (state.relabel labels).setDistinct = state.setDistinct.mapState (relabel labels) := by
  simp only [setDistinct, apply_ite (Outcome.mapState (relabel labels))]
  rfl

/-- The copies of the row are registered alike with both contexts. -/
def RegistersAlike (labels : Relabeling) (row : Row) (state : ResultState) : Prop :=
  (state.relabel labels).registerCopies row.copies =
    ((state.registerCopies row.copies).1.relabel labels, (state.registerCopies row.copies).2)

theorem append_relabel {labels : Relabeling} {row : Row}
    (registers : state.RegistersAlike labels row) :
    (state.relabel labels).append row = (state.append row).mapState (relabel labels) := by
  have registers : (state.relabel labels).registerCopies row.copies = _ := registers
  simp only [append, registers, apply_ite (Outcome.mapState (relabel labels))]
  rfl

theorem putDistinct_relabel {labels : Relabeling} {row : Row}
    (registers : state.RegistersAlike labels row) :
    (state.relabel labels).putDistinct row =
      (state.putDistinct row).mapState (relabel labels) := by
  have registers : (state.relabel labels).registerCopies row.copies = _ := registers
  have sameVisible : (state.relabel labels).buffer.visible = state.buffer.visible := rfl
  have sameStore : (state.relabel labels).store = state.store := rfl
  simp only [putDistinct, registers, sameVisible, sameStore]
  cases RowKey.ofVisible row.detached state.buffer.visible with
  | error fault => rfl
  | ok key =>
      cases state.store.index with
      | none => rfl
      | some index =>
          simp only [apply_ite (Outcome.mapState (relabel labels))]
          rfl

theorem add_relabel {labels : Relabeling} {row : Row}
    (registers : state.RegistersAlike labels row) :
    (state.relabel labels).add row = (state.add row).mapState (relabel labels) := by
  simp only [add, putDistinct_relabel registers, append_relabel registers,
    apply_ite (Outcome.mapState (relabel labels))]
  rfl

theorem remove_relabel (labels : Relabeling) (row : Row) :
    (state.relabel labels).remove row = (state.remove row).mapState (relabel labels) := by
  have sameStore : (state.relabel labels).store = state.store := rfl
  simp only [remove, sameStore]
  cases state.store.index with
  | none =>
      simp only [apply_ite (Outcome.mapState (relabel labels))]
      rfl
  | some index =>
      simp only [apply_ite (Outcome.mapState (relabel labels))]
      rfl

theorem materialize_relabel (labels : Relabeling) :
    (state.relabel labels).materialize = state.materialize.mapState (relabel labels) := by
  have sameStore : (state.relabel labels).store = state.store := rfl
  simp only [materialize, sameStore]
  cases state.store.index with
  | none =>
      simp only [apply_ite (Outcome.mapState (relabel labels))]
      rfl
  | some index =>
      simp only [apply_ite (Outcome.mapState (relabel labels))]
      rfl

theorem sortRows_relabel (labels : Relabeling) :
    (state.relabel labels).sortRows settings =
      (state.sortRows settings).mapState (relabel labels) := by
  have sameOrder : (state.relabel labels).buffer.order = state.buffer.order := rfl
  have sameRows : ∀ order, (state.relabel labels).orderedRows settings order =
      state.orderedRows settings order := fun _ => rfl
  simp only [sortRows, sameOrder, sameRows]
  cases state.buffer.order with
  | none => rfl
  | some order =>
      simp only
      cases state.orderedRows settings order with
      | error fault =>
          simp only [apply_ite (Outcome.mapState (relabel labels))]
          rfl
      | ok result =>
          simp only [apply_ite (Outcome.mapState (relabel labels))]
          rfl

theorem applyOffset_relabel (labels : Relabeling) :
    (state.relabel labels).applyOffset = state.applyOffset.mapState (relabel labels) := by
  simp only [applyOffset, apply_ite (Outcome.mapState (relabel labels))]
  rfl

theorem applyLimit_relabel (labels : Relabeling) :
    (state.relabel labels).applyLimit = state.applyLimit.mapState (relabel labels) := by
  simp only [applyLimit, apply_ite (Outcome.mapState (relabel labels))]
  rfl

theorem finalize_relabel (labels : Relabeling) :
    (state.relabel labels).finalize settings =
      (state.finalize settings).mapState (relabel labels) := by
  unfold finalize
  rw [apply_ite (Outcome.mapState (relabel labels)), materialize_relabel]
  congr 1
  refine Outcome.mapState_andThen _ fun _ materialized => ?_
  rw [sortRows_relabel]
  refine Outcome.mapState_andThen _ fun _ sorted => ?_
  rw [applyOffset_relabel]
  refine Outcome.mapState_andThen _ fun _ shifted => ?_
  rw [applyLimit_relabel]
  exact Outcome.mapState_andThen _ fun _ cut => rfl

theorem next_relabel (labels : Relabeling) :
    (state.relabel labels).next = state.next.mapState (relabel labels) := by
  simp only [next, apply_ite (Outcome.mapState (relabel labels))]
  rfl

/-- Apart from closing and from questions of membership, only the registration of objects looks at
what is changed. -/
theorem perform_relabel {labels : Relabeling} {command : Command} (stays : command ≠ .close)
    (silent : command.probes = false)
    (registers : ∀ row, command = .add row → state.RegistersAlike labels row) :
    (state.relabel labels).perform settings command =
      (state.perform settings command).mapState (relabel labels) := by
  cases command with
  | contains row => cases silent
  | buildIndex => cases silent
  | close => exact absurd rfl stays
  | setDistinct =>
      rw [perform, setDistinct_relabel]
      exact Outcome.mapState_mapAnswer _ fun _ _ => rfl
  | add row =>
      rw [perform, add_relabel (registers row rfl)]
      exact Outcome.mapState_mapAnswer _ fun _ _ => rfl
  | remove row =>
      rw [perform, remove_relabel]
      exact Outcome.mapState_mapAnswer _ fun _ _ => rfl
  | finalize =>
      rw [perform, finalize_relabel]
      exact Outcome.mapState_mapAnswer _ fun _ _ => rfl
  | next =>
      rw [perform, next_relabel]
      exact Outcome.mapState_mapAnswer _ fun _ _ => rfl
  | _ => rfl

theorem buildIndex_relabel {labels : Relabeling} (sameLookup : labels.lookup = id) :
    (state.relabel labels).buildIndex = state.buildIndex.mapState (relabel labels) := by
  have sameRows : (state.relabel labels).rows = state.rows := rfl
  have sameVisible : (state.relabel labels).buffer.visible = state.buffer.visible := rfl
  have sameIndex : (state.relabel labels).hasIndex = state.hasIndex := by
    simp only [hasIndex, relabel, sameLookup, id]
  simp only [buildIndex, sameRows, sameVisible, sameIndex]
  cases state.hasIndex with
  | true => rfl
  | false =>
      cases ContentIndex.ofRows state.buffer.visible state.rows with
      | error fault => rfl
      | ok index =>
          simp only [Outcome.mapState, relabel, sameLookup]
          rfl

theorem contains_relabel {labels : Relabeling} (sameLookup : labels.lookup = id) (row : Row) :
    (state.relabel labels).contains row = (state.contains row).mapState (relabel labels) := by
  rw [contains, buildIndex_relabel sameLookup]
  refine Outcome.mapState_andThen _ fun _ built => ?_
  have sameIndex : (built.relabel labels).membershipIndex = built.membershipIndex := by
    simp only [membershipIndex, relabel, sameLookup, id]
  rw [sameIndex]
  cases built.membershipIndex <;> rfl

/-- If the private index is left alone, questions of membership commute too. -/
theorem perform_relabel_of_lookup {labels : Relabeling} (sameLookup : labels.lookup = id)
    {command : Command} (stays : command ≠ .close)
    (registers : ∀ row, command = .add row → state.RegistersAlike labels row) :
    (state.relabel labels).perform settings command =
      (state.perform settings command).mapState (relabel labels) := by
  cases command with
  | contains row =>
      rw [perform, contains_relabel sameLookup]
      exact Outcome.mapState_mapAnswer _ fun _ _ => rfl
  | buildIndex =>
      rw [perform, buildIndex_relabel sameLookup]
      exact Outcome.mapState_mapAnswer _ fun _ _ => rfl
  | _ => exact perform_relabel stays rfl registers

end ResultState

end QueryResult
