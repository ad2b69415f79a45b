import QueryResult.Proofs.Buffer.Unlinked

/-!
# Registered objects

An accepted row registers the owned copies of its linked large objects, and
closing an open buffer ends the registrations that the buffer remembers. No other
command changes a registration, and a row that is refused registers nothing.
-/

set_option autoImplicit false

namespace QueryResult

namespace Context

/-- The context with more objects registered, in order, under the next handles. -/
def registering (values : List Value) (context : Context) : Context :=
  { context with
    nextHandle := context.nextHandle + values.length
    largeObjects :=
      context.largeObjects ++ (List.range' context.nextHandle values.length).zip values }

/-- The context with the registrations of the given handles ended. -/
def without (handles : List Nat) (context : Context) : Context :=
  { context with
    largeObjects := context.largeObjects.filter fun entry => decide (entry.1 ∉ handles) }

theorem registering_nil (context : Context) : context.registering [] = context := by
  simp [registering]

theorem without_nil (context : Context) : context.without [] = context := by
  simp [without]

theorem keepAll_eq (context : Context) (values : List Value) :
    (context.keepAll values).1 = List.range' context.nextHandle values.length ∧
      (context.keepAll values).2.1 = context.registering values := by
  induction values generalizing context with
  | nil => exact ⟨rfl, context.registering_nil.symm⟩
  | cons value rest ih =>
      obtain ⟨handles, kept⟩ := ih (context.keep value).2
      simp only [keepAll, handles, kept]
      refine ⟨rfl, ?_⟩
      simp [registering, keep, List.range'_succ, Nat.add_comm, Nat.add_left_comm]

theorem release_eq (context : Context) (handle : Nat) :
    (context.release handle).2 = context.without [handle] := by
  simp [release, without]

theorem releaseAll_eq (context : Context) (handles : List Nat) :
    context.releaseAll handles = context.without handles := by
  induction handles generalizing context with
  | nil => exact context.without_nil.symm
  | cons handle rest ih =>
      have stepped : context.releaseAll (handle :: rest) =
          (context.release handle).2.releaseAll rest := rfl
      rw [stepped, ih, release_eq]
      simp [without, List.filter_filter, not_or, Bool.and_comm]

end Context

/-- The objects that a command registers, by its answer: the owned copies of the linked objects of
a row that is accepted. -/
def Command.registrations (command : Command) (answer : Except Fault Answer) : List Value :=
  match command, answer with
  | .add row, .ok _ => row.copies
  | _, _ => []

theorem Command.registrations_of_not_add {command : Command} (other : ∀ row, command ≠ .add row)
    (answer : Except Fault Answer) : command.registrations answer = [] := by
  cases command with
  | add row => exact absurd rfl (other row)
  | _ => rfl

namespace Row

variable {row : Row}

/-- The copies are the values of the kept row that stand where the given row has linked ones. -/
theorem copies_eq (row : Row) :
    row.copies = ((row.zip row.detached).filter fun places => places.1.isLinked).map Prod.snd := by
  induction row with
  | nil => rfl
  | cons value rest ih =>
      have tail : copies rest =
          ((rest.zip (detached rest)).filter fun places => places.1.isLinked).map Prod.snd := ih
      cases linked : value.isLinked with
      | true => simpa [copies, detached, linked] using tail
      | false => simpa [copies, detached, linked] using tail

theorem owned_of_mem_copies {value : Value} (copied : value ∈ row.copies) :
    ∃ kind content, value = .largeObject kind content .owned := by
  obtain ⟨source, listed, rfl⟩ := List.mem_map.mp copied
  have linked : source.isLinked = true := (List.mem_filter.mp listed).2
  cases source with
  | largeObject kind content origin => exact ⟨kind, content, rfl⟩
  | _ => cases linked

theorem Unlinked.copies_eq_nil (unlinked : row.Unlinked) : row.copies = [] := by
  have none : row.filter Value.isLinked = [] :=
    List.filter_eq_nil_iff.mpr fun value held => by simp [unlinked value held]
  rw [copies, none]
  rfl

end Row

namespace ResultState

variable {settings : Settings} {before between after : ResultState} {copies : List Value}

/-- The handles of the given objects once they are registered for the state. -/
def handlesFor (state : ResultState) (copies : List Value) : List Nat :=
  match state.context with
  | none => []
  | some context => List.range' context.nextHandle copies.length

theorem handlesFor_nil (state : ResultState) : state.handlesFor [] = [] := by
  unfold handlesFor
  cases state.context <;> rfl

/-- The objects were registered for the buffer, if it belongs to a context. Otherwise context and
registrations are as they were. -/
structure Registers (copies : List Value) (before after : ResultState) : Prop where
  owner : after.buffer.context = before.buffer.context
  closed : after.buffer.closed = before.buffer.closed
  context : after.context = before.context.map (Context.registering copies)
  registered : after.buffer.registered = before.buffer.registered ++ before.handlesFor copies

/-- The registrations of the buffer ended, unless it had been closed before. -/
structure Closes (before after : ResultState) : Prop where
  owner : after.buffer.context = before.buffer.context
  closed : after.buffer.closed = true
  context : before.buffer.closed = false →
    after.context = before.context.map (Context.without before.buffer.registered)
  unchanged : before.buffer.closed = true → after.context = before.context

theorem registers_nothing (owner : after.buffer.context = before.buffer.context)
    (closed : after.buffer.closed = before.buffer.closed)
    (context : after.context = before.context)
    (registered : after.buffer.registered = before.buffer.registered) :
    Registers [] before after where
  owner := owner
  closed := closed
  context := by
    have same : Context.registering [] = id := funext Context.registering_nil
    rw [context, same, Option.map_id, id]
  registered := by
    rw [registered, handlesFor_nil, List.append_nil]

theorem Registers.context_eq (nothing : Registers [] before after) :
    after.context = before.context := by
  have same : Context.registering [] = id := funext Context.registering_nil
  have context := nothing.context
  rwa [same, Option.map_id, id] at context

theorem Registers.registered_eq (nothing : Registers [] before after) :
    after.buffer.registered = before.buffer.registered := by
  have registered := nothing.registered
  rwa [handlesFor_nil, List.append_nil] at registered

theorem Registers.then_nothing (first : Registers [] before between)
    (second : Registers [] between after) : Registers [] before after :=
  registers_nothing (second.owner.trans first.owner) (second.closed.trans first.closed)
    (second.context_eq.trans first.context_eq) (second.registered_eq.trans first.registered_eq)

theorem registerCopies_registers (state : ResultState) (copies : List Value) :
    Registers copies state (state.registerCopies copies).1 := by
  unfold registerCopies
  cases held : state.context with
  | none => exact ⟨rfl, rfl, by simp [held], by simp [handlesFor, held]⟩
  | some context =>
      obtain ⟨handles, kept⟩ := context.keepAll_eq copies
      exact ⟨rfl, rfl, by simp [held, kept], by simp [handlesFor, held, handles]⟩

theorem registerCopies_nil (state : ResultState) : state.registerCopies [] = (state, []) := by
  unfold registerCopies
  cases held : state.context with
  | none => rfl
  | some context => simp [Context.keepAll, ← held]

/-- Adding a row registers its copies, or is refused and changes nothing. -/
theorem add_registers (state : ResultState) (row : Row) :
    (∃ fault, state.add row = .refuse fault state) ∨
      (state.add row).answer = .ok () ∧ Registers row.copies state (state.add row).state := by
  have registers := state.registerCopies_registers row.copies
  unfold add
  split
  · exact .inl ⟨_, rfl⟩
  split
  · exact .inl ⟨_, rfl⟩
  split
  · exact .inl ⟨_, rfl⟩
  split
  · unfold putDistinct
    split
    · exact .inl ⟨_, rfl⟩
    split
    · exact .inl ⟨_, rfl⟩
    dsimp only
    split
    · exact .inl ⟨_, rfl⟩
    · exact .inr ⟨rfl, registers.owner, registers.closed, registers.context, registers.registered⟩
  · unfold append
    split
    · exact .inl ⟨_, rfl⟩
    · exact .inr ⟨rfl, registers.owner, registers.closed, registers.context, registers.registered⟩

theorem perform_add_registers (settings : Settings) (state : ResultState) (row : Row) :
    Registers (Command.registrations (.add row) (state.perform settings (.add row)).answer) state
      (state.perform settings (.add row)).state := by
  rw [perform]
  rcases state.add_registers row with ⟨fault, refused⟩ | ⟨accepted, registers⟩
  · rw [refused]
    exact registers_nothing rfl rfl rfl rfl
  · generalize state.add row = outcome at accepted registers
    obtain ⟨answer, after, events⟩ := outcome
    cases accepted
    exact registers

theorem registrations_of_finalized (settings : Settings) {state : ResultState}
    (finalized : state.buffer.finalized = true) (command : Command) :
    command.registrations (state.perform settings command).answer = [] := by
  cases command with
  | add row =>
      have effect := state.add_effect row
      rw [perform]
      generalize (state.add row).mapAnswer (fun _ _ => Answer.done) = outcome at effect
      cases effect with
      | refused command fault => rfl
      | configured command threshold order offset limit randomAccess configures => cases configures
      | appended row registered context events fillable =>
          simp [fillable.unfinalized] at finalized
      | put row index registered context events fillable =>
          simp [fillable.unfinalized] at finalized
  | _ => exact Command.registrations_of_not_add (fun _ => by simp) _

/-- A row that is accepted is held with the copies in place of its linked objects, also if it takes
the place of another row. -/
theorem Sound.add_keeps (sound : before.Sound) {row : Row}
    (accepted : (before.add row).answer = .ok ()) :
    ∃ pending, (before.add row).state.pending? = some pending ∧ row.detached ∈ pending := by
  have effect := before.add_effect row
  rw [← state_mapAnswer (before.add row) fun _ _ => Answer.done]
  have answered : ((before.add row).mapAnswer fun _ _ => Answer.done).answer = .ok .done := by
    generalize before.add row = outcome at accepted
    obtain ⟨answer, after, events⟩ := outcome
    cases accepted
    rfl
  generalize (before.add row).mapAnswer (fun _ _ => Answer.done) = outcome at effect answered
  cases effect with
  | refused command fault => cases answered
  | configured command threshold order offset limit randomAccess configures => cases configures
  | appended row registered context events fillable plain =>
      refine ⟨_, if_neg (by simp [Outcome.accept, plain]), ?_⟩
      exact Array.mem_toList_iff.mpr Array.mem_push_self
  | put row index registered context events fillable distinct wide held =>
      obtain ⟨_, map, represents, _⟩ := sound.projects index held
      exact ⟨_, (if_pos distinct).trans rfl, represents.mem_values_insert _ _⟩

theorem close_closes (state : ResultState) : Closes state state.close.state := by
  unfold close
  cases closed : state.buffer.closed with
  | true => exact ⟨rfl, closed, fun isOpen => by simp [closed] at isOpen, fun _ => rfl⟩
  | false =>
      refine ⟨rfl, rfl, fun _ => ?_, fun isClosed => by simp [closed] at isClosed⟩
      exact congrArg (fun change => state.context.map change)
        (funext fun context => context.releaseAll_eq _)

theorem Sound.finalize_registers (sound : before.Sound) (settings : Settings) :
    Registers [] before (before.finalize settings).state := by
  cases finalized : before.buffer.finalized with
  | true =>
      rw [finalize, if_pos finalized]
      exact registers_nothing rfl rfl rfl rfl
  | false =>
      have outcome := sound.finalization settings finalized
      generalize before.finalize settings = outcome at outcome
      cases outcome <;> exact registers_nothing rfl rfl rfl rfl

/-- A command other than closing registers the copies of a row that it accepts. -/
theorem Sound.perform_registers (sound : before.Sound) (settings : Settings) {command : Command}
    (stays : command ≠ .close) :
    Registers (command.registrations (before.perform settings command).answer) before
      (before.perform settings command).state := by
  by_cases adding : ∃ row, command = .add row
  · obtain ⟨row, rfl⟩ := adding
    exact before.perform_add_registers settings row
  have other : ∀ row, command ≠ .add row := fun row same => adding ⟨row, same⟩
  rw [Command.registrations_of_not_add other]
  by_cases finalizing : command = .finalize
  · subst finalizing
    rw [ResultState.perform, state_mapAnswer]
    exact sound.finalize_registers settings
  · have effect := before.perform_effect settings finalizing
    generalize before.perform settings command = outcome at effect
    cases effect with
    | appended row => exact absurd rfl (other row)
    | put row => exact absurd rfl (other row)
    | closed => exact absurd rfl stays
    | _ => exact registers_nothing rfl rfl rfl rfl

end ResultState

end QueryResult
