import QueryResult.Proofs.Buffer.Transfer
import QueryResult.Proofs.Session.Orderly

/-!
# What an action addresses

An action addresses a buffer if it is a command on it, reads its rows into
another buffer, makes it or destroys it. All other actions leave the buffer as
it is. A command on a buffer changes the buffer, its store and its context to
what the command makes of the three.
-/

set_option autoImplicit false

namespace QueryResult

namespace Action

/-- The action is a command on the buffer of that name. -/
def isOn (name : String) : Action → Bool
  | .command buffer _ => decide (buffer = name)
  | _ => false

theorem eq_command_of_isOn {name : String} {action : Action} (isOn : action.isOn name = true) :
    ∃ command, action = .command name command := by
  cases action with
  | command buffer command =>
      cases of_decide_eq_true isOn
      exact ⟨command, rfl⟩
  | _ => cases isOn

/-- The action makes or destroys the buffer of that name. -/
def replaces (name : String) : Action → Bool
  | .openBuffer buffer _ _ _ _ | .readBuffer buffer _ _ _ | .copyBuffer buffer _ _
  | .destroy buffer => decide (buffer = name)
  | _ => false

/-- The action makes a buffer of that name in that context. -/
def Makes (name : String) (owner : Option String) : Action → Prop
  | .openBuffer buffer _ _ context _ | .readBuffer buffer _ _ context
  | .copyBuffer buffer _ context => buffer = name ∧ context = owner
  | _ => False

/-- The action reads the rows of the buffer of that name into another one. -/
def readsFrom (name : String) : Action → Bool
  | .readBuffer _ source _ _ => decide (source = name)
  | _ => false

end Action

namespace Session

variable {session : Session} {name other : String}

/-! ## Buffers that are not addressed -/

theorem buffers_install_self (session : Session) (name : String) (buffer : Buffer) :
    (session.install name buffer).buffers.get? name = some buffer :=
  (congrFun (congrArg Holdings.buffers (session.holdings_install name buffer)) name).trans
    (Function.update_self _ _ _)

theorem buffers_install_other (session : Session) (buffer : Buffer) (different : other ≠ name) :
    (session.install name buffer).buffers.get? other = session.buffers.get? other :=
  (congrFun (congrArg Holdings.buffers (session.holdings_install name buffer)) other).trans
    (Function.update_of_ne different _ _)

theorem buffers_openBuffer_other (different : other ≠ name) (schema : Option Schema)
    (visible : Nat) (context : Option String) (threshold : Option UInt64) :
    (session.openBuffer name schema visible context threshold).state.buffers.get? other =
      session.buffers.get? other := by
  unfold openBuffer
  split
  · rfl
  split
  · rfl
  · exact buffers_install_other _ _ different

theorem buffers_copyBuffer_other (different : other ≠ name) (source : String)
    (context : Option String) :
    (session.copyBuffer name source context).state.buffers.get? other =
      session.buffers.get? other := by
  unfold copyBuffer
  split
  · rfl
  split
  · rfl
  split
  · rfl
  · exact buffers_install_other _ _ different

theorem buffers_destroy_self (session : Session) (name : String) :
    (session.destroy name).state.buffers.get? name = none := by
  unfold destroy
  split
  · assumption
  · exact Table.get?_erase_self _ _

theorem buffers_destroy_other (different : other ≠ name) :
    (session.destroy name).state.buffers.get? other = session.buffers.get? other := by
  have closed : (session.closeBuffer name).buffers.get? other = session.buffers.get? other :=
    congrFun (congrArg Holdings.buffers (session.holdings_closeBuffer name)) other
  unfold destroy
  split
  · rfl
  · exact (Table.get?_erase_other _ (Ne.symm different)).trans closed

/-- Reading the rows of a buffer moves its cursor. -/
theorem buffers_readBuffer_other (different : other ≠ name) (source : String) (limit : UInt64)
    (context : Option String) :
    (session.readBuffer name source limit context).state.buffers.get? other =
        session.buffers.get? other ∨
      source = other ∧ ∃ buffer moves, session.buffers.get? other = some buffer ∧
        (∀ command ∈ moves, command = .next) ∧
        (session.readBuffer name source limit context).state.buffers.get? other =
          some ((session.load buffer).performAll session.settings moves).2.buffer := by
  have moved : ∀ (buffer : Buffer) (moves : List Command),
      session.buffers.get? source = some buffer → (∀ command ∈ moves, command = .next) →
      ∀ after : Option Buffer,
        after = (session.holdings.put source
          ((session.load buffer).performAll session.settings moves).2).buffers other →
        after = session.buffers.get? other ∨
          source = other ∧ ∃ buffer moves, session.buffers.get? other = some buffer ∧
            (∀ command ∈ moves, command = .next) ∧
            after = some ((session.load buffer).performAll session.settings moves).2.buffer := by
    rintro buffer moves held onlyNext after rfl
    by_cases same : other = source
    · subst same
      exact .inr ⟨rfl, buffer, moves, held, onlyNext, Function.update_self _ _ _⟩
    · exact .inl (Function.update_of_ne same _ _)
  have reading := session.readBuffer_reading name source limit context
  generalize session.readBuffer name source limit context = outcome at reading
  cases reading with
  | refused fault => exact .inl rfl
  | failed buffer moves fault after events held onlyNext reached =>
      exact moved buffer moves held onlyNext _ (congrFun (congrArg Holdings.buffers reached) other)
  | made buffer moves adds owner schema visible threshold context target answer after events reports
      held onlyNext onlyAdd finalized reached =>
      exact moved buffer moves held onlyNext _
        ((congrFun (congrArg Holdings.buffers reached) other).trans
          (Function.update_of_ne different _ _))

theorem buffers_setSource (orderly : session.holdings.Orderly) (source : String)
    (content : Bytes) (name : String) :
    (session.setSource source content).buffers.get? name = session.buffers.get? name := by
  have followed : (session.setSource source content).buffers.get? name =
      (session.buffers.get? name).map (Buffer.follow source content) :=
    Table.get?_map session.buffers _ name
  rw [followed]
  cases held : session.buffers.get? name with
  | none => rfl
  | some buffer =>
      have unlinked := orderly.unlinked name buffer none held
      exact congrArg some (unlinked.follow_buffer source content)

theorem buffers_onBuffer_self (orderly : session.holdings.Orderly) {buffer : Buffer}
    (held : session.buffers.get? name = some buffer) (command : Command) :
    (session.step (.command name command)).state.buffers.get? name =
      some ((session.load buffer).perform session.settings command).state.buffer := by
  have put := onBuffer_holdings session.settings held (orderly.sound name buffer _ held) command
  exact (congrFun (congrArg Holdings.buffers put) name).trans (Holdings.put_buffers_self _ _ _)

theorem storeOf_onBuffer_self (orderly : session.holdings.Orderly) {buffer : Buffer}
    (held : session.buffers.get? name = some buffer) (command : Command) :
    (session.step (.command name command)).state.storeOf
        ((session.load buffer).perform session.settings command).state.buffer.store =
      ((session.load buffer).perform session.settings command).state.store := by
  have put := onBuffer_holdings session.settings held (orderly.sound name buffer _ held) command
  exact (congrFun (congrArg Holdings.stores put) _).trans (Holdings.put_stores_self _ _ _)

theorem buffers_onBuffer_other (orderly : session.holdings.Orderly) (different : other ≠ name)
    (command : Command) :
    (session.step (.command name command)).state.buffers.get? other =
      session.buffers.get? other := by
  cases held : session.buffers.get? name with
  | none =>
      simp only [step, onBuffer, held]
      rfl
  | some buffer =>
      have put := onBuffer_holdings session.settings held (orderly.sound name buffer _ held) command
      exact (congrFun (congrArg Holdings.buffers put) other).trans
        (Function.update_of_ne different _ _)

/-- What an action that neither makes nor destroys a buffer, and is no command on it, makes of it:
nothing, unless it reads its rows and so moves its cursor. -/
theorem buffers_step_other (orderly : session.holdings.Orderly) {action : Action}
    (notOn : action.isOn name = false) (stays : action.replaces name = false) :
    (session.step action).state.buffers.get? name = session.buffers.get? name ∨
      action.readsFrom name = true ∧ ∃ buffer moves, session.buffers.get? name = some buffer ∧
        (∀ command ∈ moves, command = .next) ∧
        (session.step action).state.buffers.get? name =
          some ((session.load buffer).performAll session.settings moves).2.buffer := by
  cases changes : action.changesHoldings with
  | false =>
      have same := session.holdings_step_of_not_changesHoldings changes
      exact .inl (congrFun (congrArg Holdings.buffers same) name)
  | true =>
      cases action with
      | setSource source content => exact .inl (buffers_setSource orderly source content name)
      | openBuffer buffer schema visible context threshold =>
          exact .inl (buffers_openBuffer_other (Ne.symm (of_decide_eq_false stays)) _ _ _ _)
      | readBuffer buffer source limit context =>
          rcases session.buffers_readBuffer_other (Ne.symm (of_decide_eq_false stays)) source limit
            context with same | ⟨rfl, moved⟩
          · exact .inl same
          · exact .inr ⟨decide_eq_true rfl, moved⟩
      | copyBuffer buffer source context =>
          exact .inl (buffers_copyBuffer_other (Ne.symm (of_decide_eq_false stays)) _ _)
      | destroy buffer => exact .inl (buffers_destroy_other (Ne.symm (of_decide_eq_false stays)))
      | command buffer command =>
          exact .inl (buffers_onBuffer_other orderly (Ne.symm (of_decide_eq_false notOn)) command)
      | _ => cases changes

theorem finalized_step (orderly : session.holdings.Orderly) {buffer : Buffer}
    (held : session.buffers.get? name = some buffer) (finalized : buffer.finalized = true)
    {action : Action} (stays : action.replaces name = false) :
    ∃ after : Buffer, (session.step action).state.buffers.get? name = some after ∧
      after.finalized = true := by
  cases isOn : action.isOn name with
  | true =>
      obtain ⟨command, rfl⟩ := Action.eq_command_of_isOn isOn
      exact ⟨_, buffers_onBuffer_self orderly held command,
        ResultState.finalized_perform session.settings finalized command⟩
  | false =>
      rcases buffers_step_other orderly isOn stays with same | ⟨_, own, moves, present, _, moved⟩
      · exact ⟨buffer, same.trans held, finalized⟩
      · cases held.symm.trans present
        refine ⟨_, moved, ?_⟩
        exact ResultState.performAll_holds (fun after => after.buffer.finalized = true)
          (fun _ => True) (fun _ command _ still => ResultState.finalized_perform _ still command)
          finalized fun _ _ => trivial

theorem finalized_copyBuffer {source : String} {owner : Option String} {threshold : UInt64}
    (accepted : (session.step (.copyBuffer name source owner)).answer =
      .ok (.threshold threshold)) :
    ∃ copy : Buffer, (session.step (.copyBuffer name source owner)).state.buffers.get? name =
      some copy ∧ copy.finalized = true := by
  simp only [step, copyBuffer] at accepted ⊢
  cases checked : session.checkContext owner with
  | error fault => simp [checked, Outcome.refuse] at accepted
  | ok _ =>
      cases held : session.buffers.get? source with
      | none => simp [checked, held, Outcome.refuse] at accepted
      | some buffer =>
          cases copied : (session.load buffer).shallowCopy owner with
          | none => simp [checked, held, copied, Outcome.accept] at accepted
          | some result =>
              obtain ⟨frozen, copy⟩ := result
              dsimp only
              rw [copied]
              refine ⟨copy, buffers_install_self _ _ _, ?_⟩
              unfold ResultState.shallowCopy at copied
              split at copied
              · cases copied
                rfl
              · cases copied

end Session

end QueryResult
