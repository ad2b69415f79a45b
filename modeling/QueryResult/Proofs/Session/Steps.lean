import QueryResult.Proofs.Buffer.Transfer
import QueryResult.Proofs.Session.Holdings

/-!
# What actions do to holdings

Every action is a sequence of changes of the holdings: `step_holdings`. Most
actions are one change or none. Reading one result into a new buffer moves the
cursor of the first and then makes the second, unless a row is refused.
-/

set_option autoImplicit false

namespace QueryResult.Session

variable {session : Session}

theorem stepAll_append (first second : List Action) (session : Session) :
    session.stepAll (first ++ second) =
      ((session.stepAll first).1 ++ ((session.stepAll first).2.stepAll second).1,
        ((session.stepAll first).2.stepAll second).2) := by
  induction first generalizing session with
  | nil => rfl
  | cons action rest ih => simp only [List.cons_append, stepAll, ih]

theorem openBuffer_holdings (mayAsk : Nat → Prop) (name : String) (schema : Option Schema)
    (visible : Nat) (context : Option String) (threshold : Option UInt64) :
    Relation.ReflTransGen (Holdings.Step mayAsk) session.holdings
      (session.openBuffer name schema visible context threshold).state.holdings := by
  unfold openBuffer
  split
  · exact .refl
  · split
    · exact .refl
    · rename_i schema
      refine .single ?_
      simp only [Outcome.accept]
      rw [holdings_install, holdings_insertStore]
      exact .made name context schema visible (threshold.getD (session.inheritedThreshold context))
        none session.settings [] (by simp)

theorem destroy_holdings (mayAsk : Nat → Prop) (name : String) :
    Relation.ReflTransGen (Holdings.Step mayAsk) session.holdings
      (session.destroy name).state.holdings := by
  unfold destroy
  split
  · exact .refl
  · refine .single ?_
    simp only [Outcome.accept]
    rw [holdings_erase]
    exact .destroyed name

theorem copyBuffer_holdings (mayAsk : Nat → Prop) (name source : String)
    (context : Option String) :
    Relation.ReflTransGen (Holdings.Step mayAsk) session.holdings
      (session.copyBuffer name source context).state.holdings := by
  unfold copyBuffer
  split
  · exact .refl
  split
  · exact .refl
  rename_i buffer held
  split
  · exact .refl
  · rename_i frozen copy copied
    refine .single ?_
    have shared := session.holdings_insertStore buffer.store session.nextStore frozen.store
    simp only [Outcome.accept]
    rw [holdings_install, shared]
    exact .copied name source buffer copy _ context frozen held copied

/-- Reading the rows of a buffer into a new one and finalizing that, as making a buffer of the rows
does it. -/
def readFrom (session : Session) (buffer : Buffer) (limit : UInt64) (owner : Option String) :
    Outcome ResultState.Transfer Unit :=
  ResultState.readInto session.settings ((session.load buffer).attempts limit)
    ⟨session.load buffer, ResultState.opened owner buffer.schema buffer.visible
      (session.inheritedThreshold owner) session.nextStore (owner.bind session.contexts.get?)⟩

theorem readFrom_moves (session : Session) (buffer : Buffer) (limit : UInt64)
    (owner : Option String) :
    ∃ moves, (∀ command ∈ moves, command = .next) ∧
      (session.readFrom buffer limit owner).state.source =
        ((session.load buffer).performAll session.settings moves).2 :=
  (ResultState.readInto_runs session.settings _ _).1

theorem readFrom_finalizes {buffer : Buffer} {limit : UInt64} {owner : Option String}
    {answer : Unit} (accepted : (session.readFrom buffer limit owner).answer = .ok answer) :
    ∃ adds reports, (∀ command ∈ adds, ∃ row, command = .add row) ∧
      ((ResultState.opened owner buffer.schema buffer.visible (session.inheritedThreshold owner)
          session.nextStore (owner.bind session.contexts.get?)).performAll session.settings
            adds).2.finalize session.settings =
        .accept () (session.readFrom buffer limit owner).state.target reports :=
  (ResultState.readInto_runs session.settings _ _).2 answer accepted

/-- What making a buffer of the rows of another one can come to. -/
inductive Reading (session : Session) (name source : String) : Outcome Session Answer → Prop
  | refused (fault : Fault) : Reading session name source (.refuse fault session)
  | failed (buffer : Buffer) (moves : List Command) (fault : Fault) (after : Session)
      (events : List Event) (held : session.buffers.get? source = some buffer)
      (onlyNext : ∀ command ∈ moves, command = .next)
      (moved : after.holdings =
        session.holdings.put source ((session.load buffer).performAll session.settings moves).2) :
      Reading session name source ⟨.error fault, after, events⟩
  | made (buffer : Buffer) (moves adds : List Command) (owner : Option String) (schema : Schema)
      (visible : Nat) (threshold : UInt64) (context : Option Context) (target : ResultState)
      (answer : Answer) (after : Session) (events reports : List Event)
      (held : session.buffers.get? source = some buffer)
      (onlyNext : ∀ command ∈ moves, command = .next)
      (onlyAdd : ∀ command ∈ adds, ∃ row, command = .add row)
      (finalized :
        ((ResultState.opened owner schema visible threshold session.nextStore context).performAll
            session.settings adds).2.finalize session.settings = .accept () target reports)
      (moved : after.holdings =
        { (session.holdings.put source
              ((session.load buffer).performAll session.settings moves).2).put name target with
          nextStore := session.nextStore + 1 }) :
      Reading session name source ⟨.ok answer, after, events⟩

/-- What the session comes to when rows of one of its buffers have been read into a new one. -/
def concludeReading (session : Session) (name source : String) (owner : Option String)
    (finished : Outcome ResultState.Transfer Unit) : Outcome Session Answer :=
  let moved :=
    { session with buffers := session.buffers.insert source finished.state.source.buffer }
  match finished.answer with
  | .error fault =>
      ⟨.error fault, moved.saveContext owner finished.state.target.close.state.context,
        finished.events⟩
  | .ok _ =>
      let made := finished.state.target
      let saved := moved.saveContext owner made.context
      let stored :=
        { saved with
          stores := saved.stores.insert saved.nextStore made.store
          nextStore := saved.nextStore + 1 }
      ⟨.ok (.threshold made.buffer.threshold), stored.install name made.buffer, finished.events⟩

theorem readBuffer_eq {buffer : Buffer} {source : String} {owner : Option String}
    (checked : session.checkContext owner = .ok ())
    (held : session.buffers.get? source = some buffer) (name : String) (limit : UInt64) :
    session.readBuffer name source limit owner =
      session.concludeReading name source owner (session.readFrom buffer limit owner) := by
  simp only [readBuffer, checked, held]
  rfl

theorem readBuffer_cases (name source : String) (limit : UInt64) (owner : Option String) :
    (∃ fault, session.readBuffer name source limit owner = .refuse fault session) ∨
      ∃ buffer, session.buffers.get? source = some buffer ∧
        session.readBuffer name source limit owner =
          session.concludeReading name source owner (session.readFrom buffer limit owner) := by
  cases checked : session.checkContext owner with
  | error fault => exact .inl ⟨fault, by simp only [readBuffer, checked]⟩
  | ok _ =>
      cases held : session.buffers.get? source with
      | none => exact .inl ⟨.missing .buffer, by simp only [readBuffer, checked, held]⟩
      | some buffer => exact .inr ⟨buffer, rfl, readBuffer_eq checked held name limit⟩

theorem store_readFrom (session : Session) (buffer : Buffer) (limit : UInt64)
    (owner : Option String) :
    (session.readFrom buffer limit owner).state.source.store = session.storeOf buffer.store ∧
      (session.readFrom buffer limit owner).state.source.buffer.store = buffer.store := by
  obtain ⟨moves, onlyNext, moved⟩ := session.readFrom_moves buffer limit owner
  rw [moved]
  exact ResultState.store_performAll_next session.settings onlyNext (session.load buffer)

theorem number_readFrom (session : Session) (buffer : Buffer) (limit : UInt64)
    (owner : Option String) (accepted : (session.readFrom buffer limit owner).answer = .ok ()) :
    (session.readFrom buffer limit owner).state.target.buffer.store = session.nextStore := by
  obtain ⟨adds, reports, _, finalized⟩ := readFrom_finalizes accepted
  rw [← ResultState.performAll_finalize finalized]
  exact ((ResultState.sound_opened _ _ _ _ _ _).shape_performAll session.settings _).2

/-- The cursor of the source has moved, and if nothing was refused the new buffer is there. -/
theorem holdings_concludeReading (session : Session) (name source : String) (buffer : Buffer)
    (limit : UInt64) (owner : Option String) :
    (session.concludeReading name source owner
        (session.readFrom buffer limit owner)).state.holdings =
      match (session.readFrom buffer limit owner).answer with
      | .error _ =>
          session.holdings.put source (session.readFrom buffer limit owner).state.source
      | .ok _ =>
          { (session.holdings.put source (session.readFrom buffer limit owner).state.source).put
              name (session.readFrom buffer limit owner).state.target with
            nextStore := session.nextStore + 1 } := by
  obtain ⟨sameStore, sameNumber⟩ := session.store_readFrom buffer limit owner
  have number := session.number_readFrom buffer limit owner
  generalize session.readFrom buffer limit owner = finished at sameStore sameNumber number
  have moved := session.holdings_insertBuffer source
    (sameStore.trans (congrArg session.storeOf sameNumber.symm))
  unfold concludeReading
  cases answered : finished.answer with
  | error fault =>
      dsimp only
      rw [holdings_saveContext, moved]
  | ok _ =>
      have sameNext : ∀ moved : Session, (moved.saveContext owner
          finished.state.target.context).nextStore = moved.nextStore := fun moved =>
        congrArg Holdings.nextStore (holdings_saveContext moved _ _)
      dsimp only
      rw [holdings_install, holdings_insertStore, holdings_saveContext, sameNext, moved,
        Holdings.put, Holdings.put, number answered]

theorem readBuffer_reading (name source : String) (limit : UInt64) (context : Option String) :
    session.Reading name source (session.readBuffer name source limit context) := by
  rcases session.readBuffer_cases name source limit context with ⟨fault, refused⟩ | ⟨buffer, held, read⟩
  · rw [refused]
    exact .refused fault
  obtain ⟨moves, onlyNext, moved⟩ := session.readFrom_moves buffer limit context
  have reached := session.holdings_concludeReading name source buffer limit context
  rw [read]
  cases answered : (session.readFrom buffer limit context).answer with
  | error fault =>
      rw [answered, moved] at reached
      simp only [concludeReading, answered] at reached ⊢
      exact .failed buffer moves fault _ _ held onlyNext reached
  | ok answer =>
      obtain ⟨adds, reports, onlyAdd, finalized⟩ := readFrom_finalizes answered
      rw [answered, moved] at reached
      simp only [concludeReading, answered] at reached ⊢
      exact .made buffer moves adds context buffer.schema buffer.visible
        (session.inheritedThreshold context) (context.bind session.contexts.get?) _ _ _ _ reports
        held onlyNext onlyAdd finalized reached

theorem readBuffer_holdings (mayAsk : Nat → Prop) (name source : String) (limit : UInt64)
    (context : Option String) :
    Relation.ReflTransGen (Holdings.Step mayAsk) session.holdings
      (session.readBuffer name source limit context).state.holdings := by
  have first : ∀ {buffer : Buffer} {moves : List Command},
      session.buffers.get? source = some buffer → (∀ command ∈ moves, command = .next) →
      Holdings.Step mayAsk session.holdings
        (session.holdings.put source ((session.load buffer).performAll session.settings moves).2) := by
    intro buffer moves held onlyNext
    refine .performed source buffer (session.load buffer).context session.settings moves held ?_
    intro command listed probes
    rw [onlyNext command listed] at probes
    cases probes
  have reading := session.readBuffer_reading name source limit context
  generalize session.readBuffer name source limit context = outcome at reading
  cases reading with
  | refused fault => exact .refl
  | failed buffer moves fault after events held onlyNext moved =>
      refine .single ?_
      rw [moved]
      exact first held onlyNext
  | made buffer moves adds owner schema visible threshold context target answer after events reports
      held onlyNext onlyAdd finalized moved =>
      have silent : ∀ command ∈ adds ++ [.finalize], command.probes = false := by
        intro command listed
        rcases List.mem_append.mp listed with added | last
        · obtain ⟨row, rfl⟩ := onlyAdd command added
          rfl
        · rw [List.mem_singleton.mp last]
          rfl
      refine .tail (.single (first held onlyNext)) ?_
      rw [moved, ← ResultState.performAll_finalize finalized]
      exact .made name owner schema visible threshold context session.settings _ silent

theorem answer_command {name : String} {buffer : Buffer}
    (held : session.buffers.get? name = some buffer) (command : Command) :
    (session.step (.command name command)).answer =
      ((session.load buffer).perform session.settings command).answer := by
  simp only [step, onBuffer, held]
  rfl

theorem answer_destroy {name : String} {buffer : Buffer}
    (held : session.buffers.get? name = some buffer) :
    (session.step (.destroy name)).answer = .ok .done := by
  simp only [step, destroy, held]
  rfl

theorem onBuffer_holdings {name : String} {buffer : Buffer} (settings : Settings)
    (held : session.buffers.get? name = some buffer) (sound : (session.load buffer).Sound)
    (command : Command) :
    (session.onBuffer name (ResultState.perform settings command)).state.holdings =
      session.holdings.put name ((session.load buffer).perform settings command).state := by
  unfold onBuffer
  rw [held]
  exact holdings_save_checkOut session name buffer (sound.shape_perform settings command).2

/-- The tables of buffers and of row stores are the same. -/
structure SameTables (session after : Session) : Prop where
  stores : after.stores = session.stores
  buffers : after.buffers = session.buffers
  nextStore : after.nextStore = session.nextStore

theorem SameTables.refl (session : Session) : SameTables session session :=
  ⟨rfl, rfl, rfl⟩

theorem SameTables.holdings_eq {after : Session} (same : SameTables session after) :
    after.holdings = session.holdings := by
  have sameStores : after.storeOf = session.storeOf := by
    funext number
    rw [storeOf, storeOf, same.stores]
  rw [holdings, holdings, sameStores, same.buffers, same.nextStore]

theorem onContext_tables (name : String)
    (operation : Context → Except Fault (Answer × Context)) :
    SameTables session (session.onContext name operation).state := by
  unfold onContext
  split
  · exact .refl session
  · split <;> exact ⟨rfl, rfl, rfl⟩

theorem onIndex_tables (name : String) (row : Row) (visible : Option Nat)
    (operation : RowKey → ContentIndex → Answer × ContentIndex) :
    SameTables session (session.onIndex name row visible operation).state := by
  unfold onIndex
  split
  · exact .refl session
  · split <;> exact ⟨rfl, rfl, rfl⟩

theorem tables_step_of_not_changesHoldings (session : Session) {action : Action}
    (unchanging : action.changesHoldings = false) :
    SameTables session (session.step action).state := by
  cases action with
  | setSource | openBuffer | readBuffer | copyBuffer | destroy | command => cases unchanging
  | openContext context threshold =>
      simp only [step, openContext]
      split
      · exact .refl session
      · split <;> exact ⟨rfl, rfl, rfl⟩
  | setContextThreshold | releaseObject => exact onContext_tables _ _
  | registerObject context value =>
      simp only [step]
      split
      · exact .refl session
      · split <;> exact ⟨rfl, rfl, rfl⟩
  | putRow | removeRow | hasRow | findRow => exact onIndex_tables _ _ _ _
  | takeRows index =>
      simp only [step]
      split <;> exact ⟨rfl, rfl, rfl⟩
  | _ => exact ⟨rfl, rfl, rfl⟩

theorem holdings_step_of_not_changesHoldings (session : Session) {action : Action}
    (unchanging : action.changesHoldings = false) :
    (session.step action).state.holdings = session.holdings :=
  (session.tables_step_of_not_changesHoldings unchanging).holdings_eq

/-- Every action is a sequence of changes of the holdings. Questions are asked of the buffers of
those stores only for which it may ask them. -/
theorem step_holdings (session : Session) (mayAsk : Nat → Prop)
    (sound : ∀ name buffer, session.buffers.get? name = some buffer → (session.load buffer).Sound)
    (action : Action)
    (allowed : ∀ name command buffer, action = .command name command → command.probes = true →
      session.buffers.get? name = some buffer → mayAsk buffer.store) :
    Relation.ReflTransGen (Holdings.Step mayAsk) session.holdings
      (session.step action).state.holdings := by
  have unchanged : ∀ after : Session, after.holdings = session.holdings →
      Relation.ReflTransGen (Holdings.Step mayAsk) session.holdings after.holdings := by
    intro after same
    rw [same]
  cases changes : action.changesHoldings with
  | false => exact unchanged _ (session.holdings_step_of_not_changesHoldings changes)
  | true =>
      cases action with
      | setSource source content =>
          refine .single ?_
          simp only [step, Outcome.accept, holdings_setSource]
          exact .followed source content
      | openBuffer name schema visible context threshold =>
          exact openBuffer_holdings mayAsk name schema visible context threshold
      | readBuffer name source limit context =>
          exact readBuffer_holdings mayAsk name source limit context
      | copyBuffer name source context => exact copyBuffer_holdings mayAsk name source context
      | destroy name => exact destroy_holdings mayAsk name
      | command name command =>
          cases held : session.buffers.get? name with
          | none =>
              refine unchanged _ ?_
              simp only [step, onBuffer, held]
              rfl
          | some buffer =>
              refine .single ?_
              rw [step, onBuffer_holdings session.settings held (sound name buffer held)]
              exact .performed name buffer (session.load buffer).context session.settings [command]
                held fun other listed probes => by
                  cases List.mem_singleton.mp listed
                  exact allowed name command buffer rfl probes held
      | _ => cases changes

end QueryResult.Session
