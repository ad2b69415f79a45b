import QueryResult.Proofs.Session.Addressing

/-!
# What actions do to contexts

An action registers objects with a context, ends registrations, changes the
threshold or shows new content of a source; it never takes a context away.
`contexts_command` and `contexts_closeBuffer` say exactly what commands, and what
closing and destroying a buffer, do to each context.
-/

set_option autoImplicit false

namespace QueryResult

/-- What closing the buffer does to the context of a name. -/
def Buffer.closing (buffer : Buffer) (name : String) : Context → Context :=
  if buffer.closed = false ∧ buffer.context = some name then Context.without buffer.registered
  else id

/-- The buffer is one that has just been made in the given context. -/
structure Buffer.New (owner : Option String) (buffer : Buffer) : Prop where
  owner : buffer.context = owner
  unregistered : buffer.registered = []
  isOpen : buffer.closed = false

namespace ResultState

variable {before between after : ResultState}

theorem Registers.closing_eq (nothing : Registers [] before after) (name : String) :
    after.buffer.closing name = before.buffer.closing name := by
  unfold Buffer.closing
  rw [nothing.closed, nothing.owner, nothing.registered_eq]

/-- Closing a buffer that has registered nothing changes no context. -/
theorem Registers.close_context (nothing : Registers [] before after)
    (unregistered : before.buffer.registered = []) : after.close.state.context = before.context := by
  have closes := after.close_closes
  rw [← nothing.context_eq]
  cases closed : after.buffer.closed with
  | true => exact closes.unchanged closed
  | false =>
      have same : Context.without [] = id := funext Context.without_nil
      rw [closes.context closed, nothing.registered_eq, unregistered, same, Option.map_id, id]

end ResultState

namespace Context

/-- What an action can make of a context. -/
inductive Change (context : Context) : Context → Prop
  | kept : Change context context
  | limited (threshold : UInt64) : Change context { context with threshold := threshold }
  | registered (values : List Value) : Change context (context.registering values)
  | released (handles : List Nat) : Change context (context.without handles)
  | followed (source : String) (content : Bytes) : Change context (context.follow source content)

/-- What an action can make of the context of a name, if there is one. -/
inductive Step : Option Context → Option Context → Prop
  | absent : Step none none
  | opened (threshold : UInt64) : Step none (some (empty threshold))
  | changed {context after : Context} (change : context.Change after) :
      Step (some context) (some after)

theorem Step.refl (context : Option Context) : Step context context := by
  cases context with
  | none => exact .absent
  | some context => exact .changed .kept

theorem Step.of_map {change : Context → Context}
    (changes : ∀ context : Context, context.Change (change context)) (context : Option Context) :
    Step context (context.map change) := by
  cases context with
  | none => exact .absent
  | some context => exact .changed (changes context)

end Context

namespace Session

variable {session : Session} {name context : String} {buffer : Buffer}

/-- What closing the buffer of a name, if there is one, does to a context. -/
def closing (session : Session) (name context : String) : Context → Context :=
  match session.buffers.get? name with
  | none => id
  | some buffer => buffer.closing context

theorem closing_eq (held : session.buffers.get? name = some buffer) (context : String) :
    session.closing name context = buffer.closing context := by
  simp only [closing, held]

theorem closing_eq_id (missing : session.buffers.get? name = none) (context : String) :
    session.closing name context = id := by
  simp only [closing, missing]

theorem get?_saveContext (session : Session) (owner : Option String) (change : Context → Context)
    (context : String) :
    (session.saveContext owner ((owner.bind session.contexts.get?).map change)).contexts.get?
        context =
      (session.contexts.get? context).map (if owner = some context then change else id) := by
  cases owner with
  | none => simp [saveContext]
  | some own =>
      cases found : session.contexts.get? own with
      | none =>
          by_cases same : own = context
          · subst same
            simp [saveContext, found]
          · simp [saveContext, found, same]
      | some held =>
          by_cases same : own = context
          · subst same
            simp [saveContext, found, Table.get?_insert_self]
          · simp [saveContext, found, same, Table.get?_insert_other]

theorem saveContext_self (session : Session) (owner : Option String) :
    session.saveContext owner (owner.bind session.contexts.get?) = session := by
  cases owner with
  | none => rfl
  | some context =>
      cases held : session.contexts.get? context with
      | none => simp only [Option.bind_some, held, saveContext]
      | some own =>
          simp only [Option.bind_some, held, saveContext]
          rw [Table.insert_of_get? held]

theorem get?_saveContext_self (session : Session) (owner : Option String) (context : String) :
    (session.saveContext owner (owner.bind session.contexts.get?)).contexts.get? context =
      session.contexts.get? context := by
  rw [saveContext_self]

/-! ## Commands and destruction -/

theorem get?_closeBuffer (session : Session) (name context : String) :
    (session.closeBuffer name).contexts.get? context =
      (session.contexts.get? context).map (session.closing name context) := by
  cases held : session.buffers.get? name with
  | none => simp only [closeBuffer, closing_eq_id held, held, Option.map_id, id]
  | some buffer =>
      have closes := (session.load buffer).close_closes
      simp only [closeBuffer, closing_eq held, held]
      cases closed : buffer.closed with
      | true =>
          rw [closes.unchanged closed]
          simp only [load, get?_saveContext_self, Buffer.closing, closed, Bool.true_eq_false,
            false_and, if_false, Option.map_id, id]
      | false =>
          rw [closes.context closed]
          simp only [load, get?_saveContext, Buffer.closing, closed, true_and]

theorem contexts_destroy (session : Session) (name context : String) :
    (session.step (.destroy name)).state.contexts.get? context =
      (session.contexts.get? context).map (session.closing name context) := by
  cases held : session.buffers.get? name with
  | none =>
      simp only [step, destroy, held, closing_eq_id held, Option.map_id, id]
      rfl
  | some buffer =>
      rw [← get?_closeBuffer]
      simp only [step, destroy, held]
      rfl

theorem contexts_onBuffer (held : session.buffers.get? name = some buffer)
    (operation : ResultState → Outcome ResultState Answer) :
    (session.onBuffer name operation).state.contexts =
      (session.saveContext (operation (session.load buffer)).state.buffer.context
        (operation (session.load buffer)).state.context).contexts := by
  simp only [onBuffer, held, save, checkOut]
  generalize (operation (session.load buffer)).state = reached
  unfold saveContext
  split <;> rfl

theorem contexts_close (session : Session) (name context : String) :
    (session.step (.command name .close)).state.contexts.get? context =
      (session.contexts.get? context).map (session.closing name context) := by
  cases held : session.buffers.get? name with
  | none =>
      simp only [step, onBuffer, held, closing_eq_id held, Option.map_id, id]
      rfl
  | some buffer =>
      have closes := (session.load buffer).close_closes
      rw [← get?_closeBuffer]
      simp only [step, contexts_onBuffer held, ResultState.perform, ResultState.state_mapAnswer,
        closeBuffer, held, closes.owner]
      rfl

/-- A command other than closing registers the copies of a row that it accepts with the context of
its buffer. It changes no other context. -/
theorem contexts_command (held : session.buffers.get? name = some buffer)
    (sound : (session.load buffer).Sound) {command : Command} (stays : command ≠ .close)
    (context : String) :
    (session.step (.command name command)).state.contexts.get? context =
      (session.contexts.get? context).map
        (if buffer.context = some context then
          Context.registering
            (command.registrations (session.step (.command name command)).answer)
        else id) := by
  have registers := sound.perform_registers session.settings stays
  rw [answer_command held]
  simp only [step, contexts_onBuffer held, registers.owner, registers.context]
  exact session.get?_saveContext buffer.context _ context

/-! ## Making buffers -/

theorem contexts_install (session : Session) (name context : String) (buffer : Buffer) :
    (session.install name buffer).contexts.get? context =
      (session.contexts.get? context).map (session.closing name context) :=
  session.get?_closeBuffer name context

theorem closing_moved {source : String} (held : session.buffers.get? source = some buffer)
    {moves : List Command} (onlyNext : ∀ command ∈ moves, command = .next) {after : Session}
    (moved : after.buffers = session.buffers.insert source
      ((session.load buffer).performAll session.settings moves).2.buffer) (name context : String) :
    after.closing name context = session.closing name context := by
  by_cases same : name = source
  · subst same
    have now : after.buffers.get? name =
        some ((session.load buffer).performAll session.settings moves).2.buffer := by
      rw [moved]
      exact Table.get?_insert_self _ _ _
    rw [closing_eq held, closing_eq now]
    exact (ResultState.performAll_next_registers session.settings onlyNext _).closing_eq context
  · have now : after.buffers.get? name = session.buffers.get? name := by
      rw [moved]
      exact Table.get?_insert_other _ _ (Ne.symm same)
    unfold closing
    rw [now]

theorem buffers_saveContext (session : Session) (owner : Option String)
    (context : Option Context) : (session.saveContext owner context).buffers = session.buffers := by
  unfold saveContext
  split <;> rfl

theorem readFrom_registers (orderly : session.holdings.Orderly)
    (held : session.buffers.get? name = some buffer) (limit : UInt64) (owner : Option String) :
    ResultState.Registers []
      (ResultState.opened owner buffer.schema buffer.visible (session.inheritedThreshold owner)
        session.nextStore (owner.bind session.contexts.get?))
      (session.readFrom buffer limit owner).state.target :=
  ResultState.readInto_registers session.settings _
    ⟨session.load buffer, ResultState.opened owner buffer.schema buffer.visible
      (session.inheritedThreshold owner) session.nextStore (owner.bind session.contexts.get?)⟩
    (orderly.unlinked name buffer _ held).rows (ResultState.sound_opened _ _ _ _ _ _)

/-- What an action that makes a buffer can come to: nothing is made, or the buffer that had the name
is destroyed and a new one has it. No object is registered. -/
inductive Making (session : Session) (name : String) (owner : Option String)
    (outcome : Outcome Session Answer) : Prop
  | failed (answered : ∀ threshold, outcome.answer ≠ .ok (.threshold threshold))
      (contexts : ∀ context,
        outcome.state.contexts.get? context = session.contexts.get? context) :
      Making session name owner outcome
  | made (threshold : UInt64) (buffer : Buffer)
      (answered : outcome.answer = .ok (.threshold threshold)) (new : buffer.New owner)
      (held : outcome.state.buffers.get? name = some buffer)
      (contexts : ∀ context, outcome.state.contexts.get? context =
        (session.contexts.get? context).map (session.closing name context)) :
      Making session name owner outcome

theorem Making.refused (session : Session) (name : String) (owner : Option String)
    (fault : Fault) : session.Making name owner (.refuse fault session) :=
  .failed (fun _ => by simp [Outcome.refuse]) fun _ => rfl

theorem openBuffer_making (name : String) (schema : Option Schema) (visible : Nat)
    (owner : Option String) (threshold : Option UInt64) :
    session.Making name owner (session.openBuffer name schema visible owner threshold) := by
  unfold openBuffer
  split
  · exact .refused _ _ _ _
  split
  · exact .refused _ _ _ _
  · exact .made _ _ rfl ⟨rfl, rfl, rfl⟩ (buffers_install_self _ _ _)
      fun context => contexts_install _ name context _

theorem readBuffer_making (orderly : session.holdings.Orderly) (name source : String)
    (limit : UInt64) (owner : Option String) :
    session.Making name owner (session.readBuffer name source limit owner) := by
  rcases session.readBuffer_cases name source limit owner with
    ⟨fault, refused⟩ | ⟨buffer, held, read⟩
  · rw [refused]
    exact .refused _ _ _ _
  obtain ⟨moves, onlyNext, moved⟩ := session.readFrom_moves buffer limit owner
  have registers := readFrom_registers orderly held limit owner
  rw [read]
  generalize session.readFrom buffer limit owner = finished at moved registers
  unfold concludeReading
  cases finished.answer with
  | error fault =>
      refine .failed (fun _ => by simp) fun context => ?_
      dsimp only
      rw [registers.close_context rfl]
      exact get?_saveContext_self _ owner context
  | ok _ =>
      refine .made _ finished.state.target.buffer rfl
        ⟨registers.owner, registers.registered_eq, registers.closed⟩
        (buffers_install_self _ _ _) fun context => ?_
      dsimp only
      rw [contexts_install, registers.context_eq]
      refine congrArg₂ Option.map ?_ (get?_saveContext_self _ owner context)
      refine closing_moved held onlyNext ?_ name context
      rw [← moved]
      exact buffers_saveContext _ _ _

theorem copyBuffer_making (name source : String) (owner : Option String) :
    session.Making name owner (session.copyBuffer name source owner) := by
  unfold copyBuffer
  split
  · exact .refused _ _ _ _
  split
  · exact .refused _ _ _ _
  split
  · exact .failed (fun _ => by simp [Outcome.accept]) fun _ => rfl
  · rename_i frozen copy copied
    have new : copy.New owner := by
      unfold ResultState.shallowCopy at copied
      split at copied
      · cases copied
        exact ⟨rfl, rfl, rfl⟩
      · cases copied
    exact .made _ copy rfl new (buffers_install_self _ _ _)
      fun context => contexts_install _ name context _

theorem step_making (orderly : session.holdings.Orderly) {action : Action} {owner : Option String}
    (makes : action.Makes name owner) : session.Making name owner (session.step action) := by
  cases action with
  | openBuffer buffer schema visible context threshold =>
      obtain ⟨rfl, rfl⟩ := makes
      exact openBuffer_making buffer schema visible context threshold
  | readBuffer buffer source limit context =>
      obtain ⟨rfl, rfl⟩ := makes
      exact readBuffer_making orderly buffer source limit context
  | copyBuffer buffer source context =>
      obtain ⟨rfl, rfl⟩ := makes
      exact copyBuffer_making buffer source context
  | _ => cases makes

theorem new_of_makes (orderly : session.holdings.Orderly) {action : Action} {owner : Option String}
    (makes : action.Makes name owner) {threshold : UInt64}
    (accepted : (session.step action).answer = .ok (.threshold threshold)) :
    (∃ made : Buffer, made.New owner ∧ (session.step action).state.buffers.get? name = some made) ∧
      ∀ context, (session.step action).state.contexts.get? context =
        (session.contexts.get? context).map (session.closing name context) := by
  cases step_making orderly makes with
  | failed answered contexts => exact absurd accepted (answered threshold)
  | made _ buffer _ new held contexts => exact ⟨⟨buffer, new, held⟩, contexts⟩

/-! ## All actions -/

theorem closing_change (session : Session) (name own : String) (context : Context) :
    context.Change (session.closing name own context) := by
  cases held : session.buffers.get? name with
  | none =>
      rw [closing_eq_id held]
      exact .kept
  | some buffer =>
      rw [closing_eq held]
      unfold Buffer.closing
      split
      · exact .released _
      · exact .kept

theorem contexts_onContext {operation : Context → Except Fault (Answer × Context)}
    (changes : ∀ context answer after, operation context = .ok (answer, after) →
      context.Change after) (name context : String) :
    Context.Step (session.contexts.get? context)
      ((session.onContext name operation).state.contexts.get? context) := by
  unfold onContext
  split
  · exact .refl _
  rename_i own held
  split
  · exact .refl _
  · rename_i answer after accepted
    by_cases same : name = context
    · subst same
      simp only [Outcome.accept, Table.get?_insert_self, held]
      exact .changed (changes own answer after accepted)
    · simp only [Outcome.accept, Table.get?_insert_other _ _ same]
      exact .refl _

theorem contexts_openContext (name : String) (threshold : Option UInt64) (context : String) :
    Context.Step (session.contexts.get? context)
      ((session.openContext name threshold).state.contexts.get? context) := by
  unfold openContext
  split
  · exact .refl _
  rename_i missing
  dsimp only
  split
  · exact .refl _
  · by_cases same : name = context
    · subst same
      simp only [Outcome.accept, Table.get?_insert_self, missing]
      exact .opened _
    · simp only [Outcome.accept, Table.get?_insert_other _ _ same]
      exact .refl _

theorem contexts_registerObject (name : String) (value : Value) (context : String) :
    Context.Step (session.contexts.get? context)
      ((session.step (.registerObject name value)).state.contexts.get? context) := by
  simp only [step]
  split
  · exact .refl _
  rename_i own held
  split
  · exact .refl _
  · rename_i handle changed registered
    unfold Context.register at registered
    split at registered
    · cases registered
      by_cases same : name = context
      · subst same
        simp only [Outcome.accept, Table.get?_insert_self, held]
        exact .changed (.registered [value])
      · simp only [Outcome.accept, Table.get?_insert_other _ _ same]
        exact .refl _
    · cases registered

theorem contexts_step (orderly : session.holdings.Orderly) (action : Action) (context : String) :
    Context.Step (session.contexts.get? context)
      ((session.step action).state.contexts.get? context) := by
  have closed : ∀ name, Context.Step (session.contexts.get? context)
      ((session.contexts.get? context).map (session.closing name context)) :=
    fun name => .of_map (session.closing_change name context) _
  have made : ∀ {name : String} {owner : Option String}, action.Makes name owner →
      Context.Step (session.contexts.get? context)
        ((session.step action).state.contexts.get? context) := by
    intro name owner makes
    cases step_making orderly makes with
    | failed _ contexts =>
        rw [contexts]
        exact .refl _
    | made _ _ _ _ _ contexts =>
        rw [contexts]
        exact closed name
  cases action with
  | openContext name threshold => exact contexts_openContext name threshold context
  | setContextThreshold name threshold =>
      refine contexts_onContext (fun own answer after accepted => ?_) name context
      cases accepted
      exact .limited threshold
  | registerObject name value => exact contexts_registerObject name value context
  | releaseObject name handle =>
      refine contexts_onContext (fun own answer after accepted => ?_) name context
      cases accepted
      rw [own.release_eq]
      exact .released [handle]
  | setSource source content =>
      have followed : (session.step (.setSource source content)).state.contexts.get? context =
          (session.contexts.get? context).map (Context.follow source content) :=
        Table.get?_map session.contexts _ context
      rw [followed]
      exact .of_map (fun own => .followed source content) _
  | openBuffer name schema visible owner threshold => exact made ⟨rfl, rfl⟩
  | readBuffer name source limit owner => exact made ⟨rfl, rfl⟩
  | copyBuffer name source owner => exact made ⟨rfl, rfl⟩
  | destroy name =>
      rw [contexts_destroy]
      exact closed name
  | command name command =>
      cases held : session.buffers.get? name with
      | none =>
          simp only [step, onBuffer, held]
          exact .refl _
      | some buffer =>
          by_cases closes : command = .close
          · subst closes
            rw [contexts_close]
            exact closed name
          · rw [contexts_command held (orderly.sound name buffer _ held) closes]
            refine .of_map (fun own => ?_) _
            split
            · exact .registered _
            · exact .kept
  | putRow index row visible | removeRow index row visible | hasRow index row visible
  | findRow index row visible =>
      simp only [step, onIndex]
      split
      · exact .refl _
      · split <;> exact .refl _
  | takeRows index =>
      simp only [step]
      split <;> exact .refl _
  | _ => exact .refl _

end Session

end QueryResult
