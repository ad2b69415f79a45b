import QueryResult.Event

/-!
# Outcomes

What an operation on a state leaves behind: its answer or the fault for which it
was refused, the state afterwards, and the events it reported. A refused
operation has a state afterwards too, so that what it changed before the fault
is not lost.
-/

set_option autoImplicit false

namespace QueryResult

/-- The outcome of an operation on a state of type `σ` that answers with an `α`. -/
structure Outcome (σ α : Type) where
  answer : Except Fault α
  state : σ
  events : List Event

namespace Outcome

variable {σ α β : Type}

def accept (answer : α) (state : σ) (events : List Event) : Outcome σ α :=
  ⟨.ok answer, state, events⟩

def refuse (fault : Fault) (state : σ) : Outcome σ α :=
  ⟨.error fault, state, []⟩

/-- Goes on with a second operation if the first succeeded. -/
def andThen (first : Outcome σ α) (second : α → σ → Outcome σ β) : Outcome σ β :=
  match first with
  | ⟨.error fault, state, events⟩ => ⟨.error fault, state, events⟩
  | ⟨.ok answer, state, events⟩ =>
      let outcome := second answer state
      ⟨outcome.answer, outcome.state, events ++ outcome.events⟩

@[simp] theorem andThen_accept (answer : α) (state : σ) (events : List Event)
    (second : α → σ → Outcome σ β) :
    (accept answer state events).andThen second =
      { second answer state with events := events ++ (second answer state).events } :=
  rfl

@[simp] theorem andThen_refuse (fault : Fault) (state : σ) (second : α → σ → Outcome σ β) :
    (refuse fault state : Outcome σ α).andThen second = refuse fault state :=
  rfl

/-- The outcome with its answer changed, in view of the state afterwards. -/
def mapAnswer (change : α → σ → β) (outcome : Outcome σ α) : Outcome σ β :=
  match outcome with
  | ⟨.error fault, state, events⟩ => ⟨.error fault, state, events⟩
  | ⟨.ok answer, state, events⟩ => ⟨.ok (change answer state), state, events⟩

@[simp] theorem mapAnswer_accept (answer : α) (state : σ) (events : List Event)
    (change : α → σ → β) :
    (accept answer state events).mapAnswer change = accept (change answer state) state events :=
  rfl

@[simp] theorem mapAnswer_refuse (fault : Fault) (state : σ) (change : α → σ → β) :
    (refuse fault state : Outcome σ α).mapAnswer change = refuse fault state :=
  rfl

/-- All events of the outcome: the reported ones, then the one that goes with the fault. -/
def allEvents (outcome : Outcome σ α) : List Event :=
  match outcome.answer with
  | .ok _ => outcome.events
  | .error fault => outcome.events ++ (Event.ofFault? fault).toList

end Outcome

end QueryResult
