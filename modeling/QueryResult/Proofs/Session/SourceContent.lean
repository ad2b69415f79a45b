import QueryResult.Proofs.Buffer.Blank
import QueryResult.Proofs.Session.Environment

/-!
# Sessions that differ in what sources contain

The content of sources is to be seen in registered objects that are linked to
them and in free-standing indexes, and nowhere else. Two sessions that agree
apart from these agree after every action that changes no source, and unless the
action uses a free-standing index the answers are the same.
-/

set_option autoImplicit false

namespace QueryResult

namespace Action

def changesSource : Action → Bool
  | .setSource .. => true
  | _ => false

/-- The action uses a free-standing index, in which values can be linked to sources. -/
def usesIndexes : Action → Bool
  | .makeIndex _ | .putRow .. | .removeRow .. | .hasRow .. | .findRow .. | .takeRows _ => true
  | _ => false

end Action

namespace Session

/-- The sessions differ at most in sources, in free-standing indexes, and in the content of linked
objects that are registered with contexts. -/
structure SameButSources (left right : Session) : Prop where
  settings : left.settings = right.settings
  logging : left.logging = right.logging
  contexts : ∀ name, (left.contexts.get? name).map Context.blank =
    (right.contexts.get? name).map Context.blank
  holdings : left.holdings = right.holdings

/-- The answer is the same, and so is what is left up to the content of sources. -/
def AgreeButSources (left right : Outcome Session Answer) : Prop :=
  left.answer = right.answer ∧ left.state.SameButSources right.state

variable {session left right between : Session} {name : String} {buffer : Buffer}

namespace SameButSources

theorem refl (session : Session) : SameButSources session session :=
  ⟨rfl, rfl, fun _ => rfl, rfl⟩

theorem symm (same : SameButSources left right) : SameButSources right left :=
  ⟨same.settings.symm, same.logging.symm, fun name => (same.contexts name).symm,
    same.holdings.symm⟩

theorem trans (first : SameButSources left between) (second : SameButSources between right) :
    SameButSources left right :=
  ⟨first.settings.trans second.settings, first.logging.trans second.logging,
    fun name => (first.contexts name).trans (second.contexts name),
    first.holdings.trans second.holdings⟩

theorem held (same : SameButSources left right) (name : String) :
    left.buffers.get? name = right.buffers.get? name :=
  congrFun (congrArg Holdings.buffers same.holdings) name

theorem nextStore (same : SameButSources left right) : left.nextStore = right.nextStore :=
  congrArg Holdings.nextStore same.holdings

theorem ownContext (same : SameButSources left right) (owner : Option String) :
    (owner.bind left.contexts.get?).map Context.blank =
      (owner.bind right.contexts.get?).map Context.blank := by
  cases owner with
  | none => rfl
  | some name => exact same.contexts name

theorem context (same : SameButSources left right) {own : Context}
    (present : left.contexts.get? name = some own) :
    ∃ other, right.contexts.get? name = some other ∧ other.blank = own.blank := by
  have sameHere := same.contexts name
  rw [present] at sameHere
  exact Option.map_eq_some_iff.mp sameHere.symm

theorem thresholds (same : SameButSources left right) : left.thresholds = right.thresholds := by
  funext context
  have sameHere := congrArg (Option.map Context.threshold) (same.contexts context)
  rwa [Option.map_map, Option.map_map] at sameHere

theorem load (same : SameButSources left right) (buffer : Buffer) :
    (left.load buffer).SameButBlank (right.load buffer) where
  buffer := rfl
  store := congrFun (congrArg Holdings.stores same.holdings) buffer.store
  context := same.ownContext buffer.context

/-! ## Changes of both sessions -/

theorem insertContext (same : SameButSources left right) (name : String) {own other : Context}
    (sameContext : own.blank = other.blank) :
    SameButSources { left with contexts := left.contexts.insert name own }
      { right with contexts := right.contexts.insert name other } where
  settings := same.settings
  logging := same.logging
  contexts := by
    intro context
    rw [Table.get?_insert, Table.get?_insert]
    by_cases changed : context = name
    · subst changed
      simp only [Function.update_self, Option.map_some, sameContext]
    · simp only [Function.update_of_ne changed, same.contexts context]
  holdings := same.holdings

theorem insertStore (same : SameButSources left right) (number : Nat) (store : RowStore)
    {leftNext rightNext : Nat} (sameNext : leftNext = rightNext) :
    SameButSources
      { left with
        stores := left.stores.insert number store
        nextStore := leftNext }
      { right with
        stores := right.stores.insert number store
        nextStore := rightNext } where
  settings := same.settings
  logging := same.logging
  contexts := same.contexts
  holdings := by rw [holdings_insertStore, holdings_insertStore, same.holdings, sameNext]

theorem insertBuffer (same : SameButSources left right) (name : String) (buffer : Buffer) :
    SameButSources { left with buffers := left.buffers.insert name buffer }
      { right with buffers := right.buffers.insert name buffer } where
  settings := same.settings
  logging := same.logging
  contexts := same.contexts
  holdings := by
    have inserted : ∀ session : Session,
        Session.holdings { session with buffers := session.buffers.insert name buffer } =
          { session.holdings with
            buffers := Function.update session.holdings.buffers name (some buffer) } :=
      fun session => congrArg (Holdings.mk _ · _) (session.buffers.get?_insert name buffer)
    rw [inserted, inserted, same.holdings]

theorem saveContext (same : SameButSources left right) (owner : Option String)
    {context other : Option Context}
    (sameContext : context.map Context.blank = other.map Context.blank) :
    SameButSources (left.saveContext owner context) (right.saveContext owner other) := by
  cases owner with
  | none => exact same
  | some name =>
      cases context with
      | none =>
          rw [Option.map_eq_none_iff.mp sameContext.symm]
          exact same
      | some own =>
          obtain ⟨found, rfl, sameBlank⟩ := Option.map_eq_some_iff.mp sameContext.symm
          exact same.insertContext name sameBlank.symm

theorem closeBuffer (same : SameButSources left right) (name : String) :
    SameButSources (left.closeBuffer name) (right.closeBuffer name) := by
  simp only [Session.closeBuffer, same.held]
  split
  · exact same
  · exact same.saveContext _ (same.load _).close.context

theorem install (same : SameButSources left right) (name : String) (buffer : Buffer) :
    SameButSources (left.install name buffer) (right.install name buffer) :=
  (same.closeBuffer name).insertBuffer name buffer

theorem save (same : SameButSources left right) (name : String) {state other : ResultState}
    (states : state.SameButBlank other) :
    SameButSources (left.save name state) (right.save name other) := by
  have inserted := (same.insertBuffer name other.buffer).insertStore other.buffer.store other.store
    same.nextStore
  rw [Session.save, Session.save, states.buffer, states.store]
  exact inserted.saveContext _ states.context

/-! ## Operations on buffers -/

theorem agree_openBuffer (same : SameButSources left right) (name : String)
    (schema : Option Schema) (visible : Nat) (owner : Option String) (threshold : Option UInt64) :
    AgreeButSources (left.openBuffer name schema visible owner threshold)
      (right.openBuffer name schema visible owner threshold) := by
  have sameCheck := checkContext_of_thresholds same.thresholds owner
  have sameThreshold := inheritedThreshold_of_thresholds same.thresholds owner
  simp only [openBuffer, sameCheck, sameThreshold, same.nextStore]
  split
  · exact ⟨rfl, same⟩
  split
  · exact ⟨rfl, same⟩
  · exact ⟨rfl, (same.insertStore _ _ rfl).install name _⟩

theorem readFrom (same : SameButSources left right) (unlinked : (left.load buffer).Unlinked)
    (limit : UInt64) (owner : Option String) :
    (left.readFrom buffer limit owner).answer = (right.readFrom buffer limit owner).answer ∧
      (left.readFrom buffer limit owner).state.source.SameButBlank
        (right.readFrom buffer limit owner).state.source ∧
      (left.readFrom buffer limit owner).state.target.SameButBlank
        (right.readFrom buffer limit owner).state.target := by
  have sameThreshold := inheritedThreshold_of_thresholds same.thresholds owner
  have targets : ResultState.SameButBlank
      (ResultState.opened owner buffer.schema buffer.visible (left.inheritedThreshold owner)
        left.nextStore (owner.bind left.contexts.get?))
      (ResultState.opened owner buffer.schema buffer.visible (right.inheritedThreshold owner)
        right.nextStore (owner.bind right.contexts.get?)) := by
    rw [sameThreshold, same.nextStore]
    exact ⟨rfl, rfl, same.ownContext owner⟩
  rw [Session.readFrom, Session.readFrom, ← same.settings]
  exact (same.load buffer).readInto targets unlinked left.settings _

theorem agree_concludeReading (same : SameButSources left right)
    {first second : Outcome ResultState.Transfer Unit} (answers : first.answer = second.answer)
    (sources : first.state.source.SameButBlank second.state.source)
    (targets : first.state.target.SameButBlank second.state.target) (name source : String)
    (owner : Option String) :
    AgreeButSources (left.concludeReading name source owner first)
      (right.concludeReading name source owner second) := by
  have moved := same.insertBuffer source second.state.source.buffer
  simp only [concludeReading, answers, sources.buffer, targets.buffer, targets.store]
  split
  · exact ⟨rfl, moved.saveContext owner targets.close.context⟩
  · have saved := moved.saveContext owner targets.context
    refine ⟨rfl, ?_⟩
    rw [saved.nextStore]
    exact (saved.insertStore _ _ rfl).install name _

theorem agree_readBuffer (same : SameButSources left right) (orderly : left.holdings.Orderly)
    (name source : String) (limit : UInt64) (owner : Option String) :
    AgreeButSources (left.readBuffer name source limit owner)
      (right.readBuffer name source limit owner) := by
  have sameCheck := checkContext_of_thresholds same.thresholds owner
  cases checked : right.checkContext owner with
  | error fault =>
      simp only [readBuffer, sameCheck, checked]
      exact ⟨rfl, same⟩
  | ok _ =>
      cases held : right.buffers.get? source with
      | none =>
          simp only [readBuffer, sameCheck, checked, same.held source, held]
          exact ⟨rfl, same⟩
      | some buffer =>
          have leftHeld := (same.held source).trans held
          obtain ⟨answers, sources, targets⟩ :=
            same.readFrom (orderly.unlinked source buffer _ leftHeld) limit owner
          rw [readBuffer_eq checked held, readBuffer_eq (sameCheck.trans checked) leftHeld]
          exact same.agree_concludeReading answers sources targets name source owner

theorem agree_copyBuffer (same : SameButSources left right) (name source : String)
    (owner : Option String) :
    AgreeButSources (left.copyBuffer name source owner)
      (right.copyBuffer name source owner) := by
  have sameCheck := checkContext_of_thresholds same.thresholds owner
  simp only [copyBuffer, sameCheck, same.held source]
  split
  · exact ⟨rfl, same⟩
  split
  · exact ⟨rfl, same⟩
  rename_i buffer _
  have copies := (same.load buffer).shallowCopy owner
  cases copied : (left.load buffer).shallowCopy owner with
  | none =>
      rw [copied] at copies
      rw [Option.map_eq_none_iff.mp copies.symm]
      exact ⟨rfl, same⟩
  | some result =>
      rw [copied] at copies
      obtain ⟨other, otherCopied, sameResult⟩ := Option.map_eq_some_iff.mp copies.symm
      obtain ⟨frozen, copy⟩ := result
      obtain ⟨otherFrozen, otherCopy⟩ := other
      have sameStore : otherFrozen.store = frozen.store := congrArg Prod.fst sameResult
      have sameCopy : otherCopy = copy := congrArg Prod.snd sameResult
      simp only [otherCopied, sameStore, sameCopy]
      exact ⟨rfl, (same.insertStore buffer.store frozen.store same.nextStore).install name _⟩

theorem agree_destroy (same : SameButSources left right) (name : String) :
    AgreeButSources (left.destroy name) (right.destroy name) := by
  have closed := same.closeBuffer name
  simp only [destroy, same.held name]
  split
  · exact ⟨rfl, same⟩
  · refine ⟨rfl, closed.settings, closed.logging, closed.contexts, ?_⟩
    simp only [Outcome.accept]
    rw [holdings_erase, holdings_erase, same.holdings]

theorem agree_command (same : SameButSources left right) (name : String) (command : Command) :
    AgreeButSources (left.step (.command name command)) (right.step (.command name command)) := by
  have samePerform : ResultState.perform left.settings = ResultState.perform right.settings :=
    congrArg ResultState.perform same.settings
  simp only [step, onBuffer, same.held name, samePerform]
  split
  · exact ⟨rfl, same⟩
  · rename_i buffer _
    obtain ⟨answer, states⟩ := (same.load buffer).perform right.settings command
    exact ⟨answer, (same.insertStore buffer.store .empty same.nextStore).save name states⟩

/-! ## Other actions -/

theorem agree_openContext (same : SameButSources left right) (name : String)
    (threshold : Option UInt64) :
    AgreeButSources (left.openContext name threshold) (right.openContext name threshold) := by
  have sameDefault : left.settings.rowThreshold = right.settings.rowThreshold :=
    congrArg Settings.rowThreshold same.settings
  simp only [openContext, sameDefault]
  cases present : left.contexts.get? name with
  | some own =>
      obtain ⟨other, otherPresent, _⟩ := same.context present
      rw [otherPresent]
      exact ⟨rfl, same⟩
  | none =>
      rw [missing_of_thresholds same.thresholds present]
      dsimp only
      split
      · exact ⟨rfl, same⟩
      · exact ⟨rfl, same.insertContext name rfl⟩

/-- An operation on a context that does not look at the content of linked objects. -/
theorem agree_onContext (same : SameButSources left right) (name : String)
    {operation : Context → Except Fault (Answer × Context)}
    (commutes : ∀ own : Context, operation own.blank =
      (operation own).map fun result => (result.1, result.2.blank)) :
    AgreeButSources (left.onContext name operation) (right.onContext name operation) := by
  unfold onContext
  cases present : left.contexts.get? name with
  | none =>
      rw [missing_of_thresholds same.thresholds present]
      exact ⟨rfl, same⟩
  | some own =>
      obtain ⟨other, otherPresent, sameBlank⟩ := same.context present
      have results : (operation own).map (fun result => (result.1, result.2.blank)) =
          (operation other).map fun result => (result.1, result.2.blank) := by
        rw [← commutes, ← commutes, sameBlank]
      rw [otherPresent]
      dsimp only
      generalize operation own = first at results
      generalize operation other = second at results
      cases first with
      | error fault =>
          cases second with
          | error otherFault =>
              cases results
              exact ⟨rfl, same⟩
          | ok result => cases results
      | ok result =>
          cases second with
          | error otherFault => cases results
          | ok otherResult =>
              obtain ⟨sameAnswer, sameContext⟩ := Prod.mk.inj (Except.ok.inj results)
              exact ⟨congrArg Except.ok sameAnswer, same.insertContext name sameContext⟩

theorem agree_registerObject (same : SameButSources left right) (name : String) (value : Value) :
    AgreeButSources (left.step (.registerObject name value))
      (right.step (.registerObject name value)) := by
  simp only [step, Context.register]
  cases present : left.contexts.get? name with
  | none =>
      rw [missing_of_thresholds same.thresholds present]
      exact ⟨rfl, same⟩
  | some own =>
      obtain ⟨other, otherPresent, sameBlank⟩ := same.context present
      have sameHandle : own.nextHandle = other.nextHandle :=
        congrArg (fun context => context.nextHandle) sameBlank.symm
      have kept : (own.keep value).2.blank = (other.keep value).2.blank := by
        rw [Context.blank_keep, Context.blank_keep, sameBlank]
      rw [otherPresent]
      cases value.type.isLargeObject with
      | false => exact ⟨rfl, same⟩
      | true =>
          refine ⟨?_, same.insertContext name kept⟩
          simp only [Outcome.accept, Context.keep, sameHandle]
          rfl

theorem indexes_unseen (session : Session) (indexes : Table String ContentIndex) :
    SameButSources { session with indexes := indexes } session :=
  ⟨rfl, rfl, fun _ => rfl, rfl⟩

theorem onIndex_unseen (session : Session) (name : String) (row : Row) (visible : Option Nat)
    (operation : RowKey → ContentIndex → Answer × ContentIndex) :
    SameButSources (session.onIndex name row visible operation).state session := by
  unfold Session.onIndex
  split
  · exact .refl session
  · split
    · exact .refl session
    · exact .indexes_unseen session _

theorem step_unseen (session : Session) {action : Action} (uses : action.usesIndexes = true) :
    SameButSources (session.step action).state session := by
  cases action with
  | makeIndex index => exact .indexes_unseen session _
  | putRow | removeRow | hasRow | findRow => exact .onIndex_unseen session _ _ _ _
  | takeRows index =>
      simp only [Session.step]
      split
      · exact .refl session
      · exact .indexes_unseen session _
  | _ => cases uses

theorem agree_step (same : SameButSources left right) (orderly : left.holdings.Orderly)
    {action : Action} (keeps : action.changesSource = false) (uses : action.usesIndexes = false) :
    AgreeButSources (left.step action) (right.step action) := by
  cases action with
  | setSource => cases keeps
  | makeIndex | putRow | removeRow | hasRow | findRow | takeRows => cases uses
  | openBuffer name schema visible owner threshold =>
      exact same.agree_openBuffer name schema visible owner threshold
  | readBuffer name source limit owner => exact same.agree_readBuffer orderly name source limit owner
  | copyBuffer name source owner => exact same.agree_copyBuffer name source owner
  | destroy name => exact same.agree_destroy name
  | command name command => exact same.agree_command name command
  | openContext name threshold => exact same.agree_openContext name threshold
  | setContextThreshold name threshold => exact same.agree_onContext name fun _ => rfl
  | releaseObject name handle =>
      refine same.agree_onContext name fun own => ?_
      have released : (own.blank.release handle).2 = (own.release handle).2.blank := by
        rw [Context.release_eq, Context.release_eq, Context.blank_without]
      have found : (own.blank.release handle).1 = (own.release handle).1 := by
        simp [Context.release, Context.find?_blank]
      simp only [released, found]
      rfl
  | registerObject name value => exact same.agree_registerObject name value
  | readSetting name kind =>
      refine ⟨?_, same⟩
      simp only [Session.step, readSetting, same.settings]
  | setSetting name value =>
      exact ⟨rfl, congrArg (Settings.set · name value) same.settings, same.logging, same.contexts,
        same.holdings⟩
  | resetSettings => exact ⟨rfl, rfl, same.logging, same.contexts, same.holdings⟩
  | startLogging =>
      have started : left.logging.start (left.settings.text .logLevel) =
          right.logging.start (right.settings.text .logLevel) := by
        rw [same.settings, same.logging]
      simp only [Session.step, startLogging, started]
      exact ⟨rfl, same.settings, rfl, same.contexts, same.holdings⟩
  | setLogLevel level =>
      exact ⟨rfl, same.settings, congrArg (Logging.setLevel · level) same.logging, same.contexts,
        same.holdings⟩
  | unregisterLogger =>
      exact ⟨rfl, same.settings, congrArg Logging.unregister same.logging, same.contexts,
        same.holdings⟩
  | uninstallLogger =>
      exact ⟨rfl, same.settings, congrArg Logging.uninstall same.logging, same.contexts,
        same.holdings⟩

theorem step (same : SameButSources left right) (orderly : left.holdings.Orderly) {action : Action}
    (keeps : action.changesSource = false) :
    SameButSources (left.step action).state (right.step action).state := by
  cases uses : action.usesIndexes with
  | true => exact (step_unseen left uses).trans (same.trans (step_unseen right uses).symm)
  | false => exact (same.agree_step orderly keeps uses).2

end SameButSources

end Session

end QueryResult
