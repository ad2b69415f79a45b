import QueryResult.Proofs.Buffer.Effect

/-!
# Runs of commands

What a run has come to is told by its commands and their answers. `replay` folds
an account over them, and `replay_holds` carries a relation between state and
account from one step to whole runs.
-/

set_option autoImplicit false

namespace QueryResult

namespace Command

/-- The command comes before finalizing: it configures a result, changes its rows or asks
something. -/
def Prepares (command : Command) : Prop :=
  command ≠ .finalize ∧ command ≠ .close

instance (command : Command) : Decidable command.Prepares :=
  inferInstanceAs (Decidable (_ ∧ _))

end Command

/-- An account of a run, kept step by step from its commands and their answers. -/
def replay {α : Type} (note : α → Command → Except Fault Answer → α) (start : α)
    (commands : List Command) (answers : List (Except Fault Answer)) : α :=
  (commands.zip answers).foldl (fun account step => note account step.1 step.2) start

namespace ResultState

/-- A new buffer with its store, in the given context. -/
def opened (name : Option String) (schema : Schema) (visible : Nat) (threshold : UInt64)
    (store : Nat) (context : Option Context) : ResultState :=
  ⟨Buffer.empty name schema visible threshold store, .empty, context⟩

theorem replay_holds {α : Type} {note : α → Command → Except Fault Answer → α}
    {settings : Settings} (holds : ResultState → α → Prop) (allowed : Command → Prop)
    (step : ∀ state account command, allowed command → holds state account →
      holds (state.perform settings command).state
        (note account command (state.perform settings command).answer))
    {state : ResultState} {start : α} (initial : holds state start) {commands : List Command}
    (every : ∀ command ∈ commands, allowed command) :
    holds (state.performAll settings commands).2
      (replay note start commands (state.performAll settings commands).1) := by
  induction commands generalizing state start with
  | nil => exact initial
  | cons command rest ih =>
      have first := step state start command (every command (by simp)) initial
      exact ih first fun other listed => every other (.tail _ listed)

theorem performAll_holds {settings : Settings} (holds : ResultState → Prop)
    (allowed : Command → Prop)
    (step : ∀ state command, allowed command → holds state →
      holds (state.perform settings command).state)
    {state : ResultState} (initial : holds state) {commands : List Command}
    (every : ∀ command ∈ commands, allowed command) :
    holds (state.performAll settings commands).2 := by
  induction commands generalizing state with
  | nil => exact initial
  | cons command rest ih =>
      have first := step state command (every command (by simp)) initial
      exact ih first fun other listed => every other (.tail _ listed)

theorem state_mapAnswer {α β : Type} (outcome : Outcome ResultState α)
    (view : α → ResultState → β) : (outcome.mapAnswer view).state = outcome.state := by
  obtain ⟨answer, after, events⟩ := outcome
  cases answer <;> rfl

theorem finalize_of_perform {settings : Settings} {state final : ResultState} {events : List Event}
    (accepted : state.perform settings .finalize = .accept .done final events) :
    state.finalize settings = .accept () final events := by
  rw [ResultState.perform] at accepted
  generalize state.finalize settings = outcome at accepted
  obtain ⟨answer, after, reported⟩ := outcome
  cases answer with
  | error fault => simp [Outcome.mapAnswer, Outcome.accept] at accepted
  | ok answer =>
      simp only [Outcome.mapAnswer, Outcome.accept, Outcome.mk.injEq, true_and] at accepted
      obtain ⟨rfl, rfl⟩ := accepted
      rfl

/-- A finalized result stays finalized. -/
theorem finalized_perform (settings : Settings) {state : ResultState}
    (finalized : state.buffer.finalized = true) (command : Command) :
    (state.perform settings command).state.buffer.finalized = true := by
  by_cases again : command = .finalize
  · subst again
    simp only [perform, finalize, finalized, if_true, Outcome.mapAnswer_accept]
    exact finalized
  · have effect := state.perform_effect settings again
    generalize state.perform settings command = outcome at effect
    cases effect <;> exact finalized

theorem performAll_append (settings : Settings) (first second : List Command)
    (state : ResultState) :
    state.performAll settings (first ++ second) =
      ((state.performAll settings first).1 ++
          ((state.performAll settings first).2.performAll settings second).1,
        ((state.performAll settings first).2.performAll settings second).2) := by
  induction first generalizing state with
  | nil => rfl
  | cons command rest ih =>
      simp only [List.cons_append, performAll, ih]

end ResultState

end QueryResult
