import QueryResult.Proofs.Buffer.Cursor
import QueryResult.Proofs.Session.Environment

/-!
# What actions make of one buffer

`Transition` lists all that an action can make of the buffer of a name: a
property of buffers is carried through a run by its cases. `moves` counts how
often an action moves the cursor of the buffer, which reading its rows into
another buffer does as well.
-/

set_option autoImplicit false

namespace QueryResult

theorem Action.not_makes_of_stays {action : Action} {name : String} {owner : Option String}
    (stays : action.replaces name = false) : ¬ action.Makes name owner := by
  intro makes
  cases action with
  | openBuffer | readBuffer | copyBuffer => exact of_decide_eq_false stays makes.1
  | _ => exact makes

namespace Session

open Holdings

variable {session : Session} {name : String}

/-- How often the action moves the cursor of the buffer of that name. -/
def moves (session : Session) (name : String) : Action → Nat
  | .command own .next => if own = name then 1 else 0
  | .readBuffer _ source limit owner =>
      match session.checkContext owner, session.buffers.get? source with
      | .ok _, some buffer =>
          if source = name then
            ResultState.tries ((session.load buffer).attempts limit)
              ⟨session.load buffer, ResultState.opened owner buffer.schema buffer.visible
                (session.inheritedThreshold owner) session.nextStore
                (owner.bind session.contexts.get?)⟩
          else 0
      | _, _ => 0
  | _ => 0

/-- The action makes a new buffer of that name. -/
def Remakes (session : Session) (name : String) (action : Action) : Prop :=
  ∃ owner threshold, action.Makes name owner ∧
    (session.step action).answer = .ok (.threshold threshold)

/-- The answer tells the threshold of a buffer that was made. -/
def grants : Except Fault Answer → Bool
  | .ok (.threshold _) => true
  | _ => false

theorem remakes_iff {action : Action} :
    session.Remakes name action ↔
      action.replaces name = true ∧ grants (session.step action).answer = true := by
  constructor
  · rintro ⟨owner, threshold, makes, accepted⟩
    refine ⟨?_, by rw [accepted]; rfl⟩
    by_contra stays
    exact Action.not_makes_of_stays (Bool.eq_false_iff.mpr stays) makes
  · rintro ⟨replaces, granted⟩
    have told : ∃ threshold, (session.step action).answer = .ok (.threshold threshold) := by
      unfold grants at granted
      split at granted
      · exact ⟨_, ‹_›⟩
      · cases granted
    obtain ⟨threshold, accepted⟩ := told
    cases action with
    | openBuffer | readBuffer | copyBuffer =>
        exact ⟨_, threshold, ⟨of_decide_eq_true replaces, rfl⟩, accepted⟩
    | destroy own =>
        simp only [step, destroy] at accepted
        split at accepted <;> cases accepted
    | _ => cases replaces

instance (session : Session) (name : String) (action : Action) :
    Decidable (session.Remakes name action) :=
  decidable_of_iff' _ remakes_iff

/-- What the action can make of the buffer of that name with its store. -/
inductive Transition (session : Session) (name : String) : Action → ResultState → Prop
  | moved (action : Action) (buffer : Buffer) (context : Option Context)
      (held : session.buffers.get? name = some buffer) (notOn : action.isOn name = false)
      (kept : ¬ session.Remakes name action) :
      Transition session name action
        { ((session.load buffer).performAll session.settings
            (List.replicate (session.moves name action) .next)).2 with
          context := context }
  | shared (action : Action) (buffer : Buffer) (context : Option Context)
      (held : session.buffers.get? name = some buffer) (notOn : action.isOn name = false)
      (kept : ¬ session.Remakes name action) (unmoved : session.moves name action = 0)
      (finalized : buffer.finalized = true) :
      Transition session name action
        ⟨buffer, { session.storeOf buffer.store with frozen := true }, context⟩
  | performed (command : Command) (buffer : Buffer) (context : Option Context)
      (held : session.buffers.get? name = some buffer) :
      Transition session name (.command name command)
        { ((session.load buffer).perform session.settings command).state with context := context }
  | opened (schema : Schema) (visible : Nat) (owner : Option String) (threshold : Option UInt64)
      (context : Option Context) :
      Transition session name (.openBuffer name (some schema) visible owner threshold)
        (ResultState.opened owner schema visible
          (threshold.getD (session.inheritedThreshold owner)) session.nextStore context)
  | received (source : String) (limit : UInt64) (owner : Option String) (buffer : Buffer)
      (adds : List Command) (made : ResultState) (reports : List Event)
      (context : Option Context) (held : session.buffers.get? source = some buffer)
      (onlyAdd : ∀ command ∈ adds, ∃ row, command = .add row)
      (finalized :
        ((ResultState.opened owner buffer.schema buffer.visible (session.inheritedThreshold owner)
            session.nextStore (owner.bind session.contexts.get?)).performAll session.settings
              adds).2.finalize session.settings = .accept () made reports) :
      Transition session name (.readBuffer name source limit owner)
        { made with context := context }
  | copied (source : String) (owner : Option String) (buffer copy : Buffer) (frozen : ResultState)
      (context : Option Context) (held : session.buffers.get? source = some buffer)
      (copies : (session.load buffer).shallowCopy owner = some (frozen, copy))
      (remade : session.Remakes name (.copyBuffer name source owner)) :
      Transition session name (.copyBuffer name source owner) ⟨copy, frozen.store, context⟩

/-- The store of a buffer that is held afterwards is as the transition has it. -/
theorem load_eq {after : Holdings} {buffer : Buffer} {store : RowStore}
    (stored : after.stores buffer.store = store) (context : Option Context) :
    after.load buffer context = ⟨buffer, store, context⟩ := by
  rw [Holdings.load, stored]

theorem transition_kept {action : Action} {buffer : Buffer} {after : Holdings}
    (held : session.buffers.get? name = some buffer) (notOn : action.isOn name = false)
    (kept : ¬ session.Remakes name action) (unmoved : session.moves name action = 0)
    (same : after.stores buffer.store = session.storeOf buffer.store) (context : Option Context) :
    session.Transition name action (after.load buffer context) := by
  rw [load_eq same]
  have moved := Transition.moved action buffer context held notOn kept
  rwa [unmoved] at moved

theorem older_than_next {source : String} {sourceBuffer buffer : Buffer}
    (orderly : session.holdings.Orderly) (sourceHeld : session.buffers.get? source = some sourceBuffer)
    {limit : UInt64} {owner : Option String}
    (held : (session.holdings.put source
      (session.readFrom sourceBuffer limit owner).state.source).buffers name = some buffer) :
    buffer.store < session.nextStore := by
  obtain ⟨sameStore, sameNumber⟩ := session.store_readFrom sourceBuffer limit owner
  rcases update_eq_some held with ⟨rfl, isSource⟩ | ⟨_, present⟩
  · cases isSource
    rw [sameNumber]
    exact orderly.numbered name sourceBuffer none sourceHeld
  · exact orderly.numbered name buffer none present

/-- A buffer after its rows were read into another one. -/
theorem transition_source {source : String} {reader : String} {limit : UInt64}
    {owner : Option String} {sourceBuffer buffer : Buffer} {after : Holdings}
    (orderly : session.holdings.Orderly)
    (kept : ¬ session.Remakes name (.readBuffer reader source limit owner))
    (checked : session.checkContext owner = .ok ())
    (sourceHeld : session.buffers.get? source = some sourceBuffer)
    (held : (session.holdings.put source
      (session.readFrom sourceBuffer limit owner).state.source).buffers name = some buffer)
    (same : after.stores buffer.store = (session.holdings.put source
      (session.readFrom sourceBuffer limit owner).state.source).stores buffer.store)
    (context : Option Context) :
    session.Transition name (.readBuffer reader source limit owner) (after.load buffer context) := by
  have moved : (session.readFrom sourceBuffer limit owner).state.source = _ :=
    ResultState.source_readInto session.settings _ _
  rcases update_eq_some held with ⟨rfl, isSource⟩ | ⟨different, present⟩
  · cases isSource
    rw [put_stores_self] at same
    rw [load_eq same]
    have counted : session.moves name (.readBuffer reader name limit owner) =
        ResultState.tries ((session.load sourceBuffer).attempts limit)
          ⟨session.load sourceBuffer, ResultState.opened owner sourceBuffer.schema
            sourceBuffer.visible (session.inheritedThreshold owner) session.nextStore
            (owner.bind session.contexts.get?)⟩ := by
      simp only [moves, checked, sourceHeld, if_true]
    have transition := Transition.moved (.readBuffer reader name limit owner) sourceBuffer context
      sourceHeld rfl kept
    rw [counted, ← moved] at transition
    exact transition
  · have unmoved : session.moves name (.readBuffer reader source limit owner) = 0 := by
      simp only [moves, checked, sourceHeld, if_neg different.symm]
    refine transition_kept present rfl kept unmoved (same.trans ?_) context
    rw [moved]
    exact orderly.stores_performed different sourceHeld present (session.load sourceBuffer).context
      session.settings _

theorem transition_unchanged {action : Action} {buffer : Buffer} {after : Holdings}
    (same : after = session.holdings) (held : after.buffers name = some buffer)
    (notOn : action.isOn name = false) (kept : ¬ session.Remakes name action)
    (unmoved : session.moves name action = 0) (context : Option Context) :
    session.Transition name action (after.load buffer context) := by
  subst same
  exact transition_kept held notOn kept unmoved rfl context

theorem not_remakes_of_answer {action : Action}
    (unmade : ∀ threshold, (session.step action).answer ≠ .ok (.threshold threshold)) :
    ¬ session.Remakes name action :=
  fun ⟨_, threshold, _, made⟩ => unmade threshold made

theorem not_remakes_of_other {action : Action}
    (other : ∀ owner, ¬ action.Makes name owner) : ¬ session.Remakes name action :=
  fun ⟨owner, _, makes, _⟩ => other owner makes

theorem refused_grants_nothing (fault : Fault) (session : Session) (granted : UInt64) :
    (.refuse fault session : Outcome Session Answer).answer ≠ .ok (.threshold granted) := by
  intro same
  cases same

theorem holdings_openBuffer (session : Session) (own : String) (schema : Option Schema)
    (visible : Nat) (owner : Option String) (threshold : Option UInt64) :
    ((∀ granted, (session.openBuffer own schema visible owner threshold).answer ≠
        .ok (.threshold granted)) ∧
      (session.openBuffer own schema visible owner threshold).state.holdings = session.holdings) ∨
      ∃ found, schema = some found ∧
        (session.openBuffer own schema visible owner threshold).state.holdings =
          { session.holdings.put own
              (ResultState.opened owner found visible
                (threshold.getD (session.inheritedThreshold owner)) session.nextStore none) with
            nextStore := session.nextStore + 1 } := by
  unfold openBuffer
  split
  · exact .inl ⟨refused_grants_nothing _ _, rfl⟩
  split
  · exact .inl ⟨refused_grants_nothing _ _, rfl⟩
  · rename_i found
    refine .inr ⟨found, rfl, ?_⟩
    simp only [Outcome.accept]
    rw [holdings_install, holdings_insertStore]
    rfl

theorem holdings_copyBuffer (session : Session) (own source : String) (owner : Option String) :
    ((∀ granted, (session.copyBuffer own source owner).answer ≠ .ok (.threshold granted)) ∧
      (session.copyBuffer own source owner).state.holdings = session.holdings) ∨
      ∃ buffer frozen copy, session.buffers.get? source = some buffer ∧
        (session.load buffer).shallowCopy owner = some (frozen, copy) ∧
        (session.copyBuffer own source owner).answer = .ok (.threshold copy.threshold) ∧
        (session.copyBuffer own source owner).state.holdings =
          { session.holdings with
            stores := Function.update session.holdings.stores buffer.store frozen.store
            buffers := Function.update session.holdings.buffers own (some copy) } := by
  unfold copyBuffer
  split
  · exact .inl ⟨refused_grants_nothing _ _, rfl⟩
  split
  · exact .inl ⟨refused_grants_nothing _ _, rfl⟩
  rename_i buffer held
  split
  · refine .inl ⟨fun granted same => ?_, rfl⟩
    cases same
  · rename_i frozen copy copied
    refine .inr ⟨buffer, frozen, copy, held, copied, rfl, ?_⟩
    have shared := session.holdings_insertStore buffer.store session.nextStore frozen.store
    simp only [Outcome.accept]
    rw [holdings_install, shared]
    rfl

theorem holdings_destroy (session : Session) (own : String) :
    (session.destroy own).state.holdings = session.holdings ∨
      (session.destroy own).state.holdings =
        { session.holdings with
          buffers := Function.update session.holdings.buffers own none } := by
  unfold destroy
  split
  · exact .inl rfl
  · exact .inr (session.holdings_erase own)

theorem transition_openBuffer (orderly : session.holdings.Orderly) {own : String}
    {schema : Option Schema} {visible : Nat} {owner : Option String} {threshold : Option UInt64}
    {buffer : Buffer} {after : Holdings}
    (reached : after = (session.openBuffer own schema visible owner threshold).state.holdings)
    (held : after.buffers name = some buffer) (context : Option Context) :
    session.Transition name (.openBuffer own schema visible owner threshold)
      (after.load buffer context) := by
  rcases session.holdings_openBuffer own schema visible owner threshold with
    ⟨unmade, same⟩ | ⟨found, rfl, made⟩
  · have unmade : ¬ session.Remakes name (.openBuffer own schema visible owner threshold) :=
      not_remakes_of_answer unmade
    exact transition_unchanged (reached.trans same) held rfl unmade rfl context
  have stores := congrArg Holdings.stores (reached.trans made)
  rw [congrArg Holdings.buffers (reached.trans made)] at held
  rcases update_eq_some held with ⟨rfl, isNew⟩ | ⟨different, present⟩
  · cases isNew
    rw [load_eq ((congrFun stores _).trans (put_stores_self session.holdings name _))]
    exact .opened found visible owner threshold context
  · have older : buffer.store < session.nextStore := orderly.numbered name buffer none present
    have kept : ¬ session.Remakes name
        (.openBuffer own (some found) visible owner threshold) :=
      not_remakes_of_other fun _ makes => different makes.1.symm
    refine transition_kept present rfl kept rfl ((congrFun stores _).trans ?_) context
    exact put_stores_other session.holdings own (Nat.ne_of_lt older)

theorem transition_copyBuffer (orderly : session.holdings.Orderly) {own source : String}
    {owner : Option String} {buffer : Buffer} {after : Holdings}
    (reached : after = (session.copyBuffer own source owner).state.holdings)
    (held : after.buffers name = some buffer) (context : Option Context) :
    session.Transition name (.copyBuffer own source owner) (after.load buffer context) := by
  rcases session.holdings_copyBuffer own source owner with
    ⟨unmade, same⟩ | ⟨sourceBuffer, frozen, copy, sourceHeld, copied, granted, made⟩
  · have unmade : ¬ session.Remakes name (.copyBuffer own source owner) :=
      not_remakes_of_answer unmade
    exact transition_unchanged (reached.trans same) held rfl unmade rfl context
  obtain ⟨finalized, frozenStore, number⟩ := shallowCopy_eq copied
  have stores := congrArg Holdings.stores (reached.trans made)
  rw [congrArg Holdings.buffers (reached.trans made)] at held
  rcases update_eq_some held with ⟨rfl, isCopy⟩ | ⟨different, present⟩
  · cases isCopy
    have shares : after.stores buffer.store = frozen.store := by
      rw [stores, number]
      exact Function.update_self _ _ _
    rw [load_eq shares]
    exact .copied source owner sourceBuffer buffer frozen context sourceHeld copied
      ⟨owner, _, ⟨rfl, rfl⟩, granted⟩
  · have kept : ¬ session.Remakes name (.copyBuffer own source owner) :=
      not_remakes_of_other fun _ makes => different makes.1.symm
    by_cases sharing : buffer.store = sourceBuffer.store
    · have alsoFinalized := orderly.finalized_of_shared sourceHeld present sharing finalized
      have nowFrozen : after.stores buffer.store =
          { session.storeOf buffer.store with frozen := true } := by
        rw [stores, sharing]
        exact (Function.update_self _ _ _).trans frozenStore
      rw [load_eq nowFrozen]
      exact .shared _ buffer context present rfl kept rfl alsoFinalized
    · exact transition_kept present rfl kept rfl
        ((congrFun stores _).trans (Function.update_of_ne sharing _ _)) context

theorem transition_readBuffer (orderly : session.holdings.Orderly) {own source : String}
    {limit : UInt64} {owner : Option String} {buffer : Buffer} {after : Holdings}
    (reached : after = (session.readBuffer own source limit owner).state.holdings)
    (held : after.buffers name = some buffer) (context : Option Context) :
    session.Transition name (.readBuffer own source limit owner) (after.load buffer context) := by
  cases checked : session.checkContext owner with
  | error fault =>
      have unmoved : session.moves name (.readBuffer own source limit owner) = 0 := by
        simp only [moves, checked]
      have same : (session.readBuffer own source limit owner).state.holdings = session.holdings := by
        simp only [readBuffer, checked]
        rfl
      have unmade : ¬ session.Remakes name (.readBuffer own source limit owner) := by
        refine not_remakes_of_answer fun threshold => ?_
        simp [step, readBuffer, checked, Outcome.refuse]
      exact transition_unchanged (reached.trans same) held rfl unmade unmoved context
  | ok _ =>
      cases sourceHeld : session.buffers.get? source with
      | none =>
          have unmoved : session.moves name (.readBuffer own source limit owner) = 0 := by
            simp only [moves, checked, sourceHeld]
          have same : (session.readBuffer own source limit owner).state.holdings =
              session.holdings := by
            simp only [readBuffer, checked, sourceHeld]
            rfl
          have unmade : ¬ session.Remakes name (.readBuffer own source limit owner) := by
            refine not_remakes_of_answer fun threshold => ?_
            simp [step, readBuffer, checked, sourceHeld, Outcome.refuse]
          exact transition_unchanged (reached.trans same) held rfl unmade unmoved context
      | some sourceBuffer =>
          rw [readBuffer_eq checked sourceHeld, holdings_concludeReading] at reached
          cases answered : (session.readFrom sourceBuffer limit owner).answer with
          | error fault =>
              rw [answered] at reached
              rw [reached] at held
              have unmade : ¬ session.Remakes name (.readBuffer own source limit owner) := by
                refine not_remakes_of_answer fun threshold => ?_
                rw [step, readBuffer_eq checked sourceHeld, concludeReading, answered]
                intro granted
                cases granted
              exact transition_source orderly unmade checked sourceHeld held
                (congrFun (congrArg Holdings.stores reached) _) context
          | ok _ =>
              rw [answered] at reached
              have stores := congrArg Holdings.stores reached
              rw [congrArg Holdings.buffers reached] at held
              have number := session.number_readFrom sourceBuffer limit owner answered
              rcases update_eq_some held with ⟨rfl, isNew⟩ | ⟨different, present⟩
              · cases isNew
                obtain ⟨adds, reports, onlyAdd, finalized⟩ := readFrom_finalizes answered
                rw [load_eq ((congrFun stores _).trans (put_stores_self _ name _))]
                exact .received source limit owner sourceBuffer adds _ reports context sourceHeld
                  onlyAdd finalized
              · have older := older_than_next orderly sourceHeld present
                have kept : ¬ session.Remakes name (.readBuffer own source limit owner) :=
                  not_remakes_of_other fun _ makes => different makes.1.symm
                refine transition_source orderly kept checked sourceHeld present
                  ((congrFun stores _).trans (put_stores_other _ own ?_)) context
                exact number.symm ▸ Nat.ne_of_lt older

theorem transition_command (orderly : session.holdings.Orderly) {own : String} {command : Command}
    {buffer : Buffer} {after : Holdings}
    (reached : after = (session.step (.command own command)).state.holdings)
    (held : after.buffers name = some buffer) (context : Option Context) :
    session.Transition name (.command own command) (after.load buffer context) := by
  have unaddressed : name ≠ own → Action.isOn name (.command own command) = false ∧
      session.moves name (.command own command) = 0 := by
    intro different
    refine ⟨decide_eq_false different.symm, ?_⟩
    cases command with
    | next => exact if_neg different.symm
    | _ => rfl
  have kept : ¬ session.Remakes name (.command own command) := not_remakes_of_other fun _ => id
  cases ownHeld : session.buffers.get? own with
  | none =>
      have same : (session.step (.command own command)).state.holdings = session.holdings := by
        simp only [step, onBuffer, ownHeld]
        rfl
      have different : name ≠ own := by
        rintro rfl
        rw [reached, same] at held
        cases ownHeld.symm.trans held
      obtain ⟨notOn, unmoved⟩ := unaddressed different
      exact transition_unchanged (reached.trans same) held notOn kept unmoved context
  | some ownBuffer =>
      have put := onBuffer_holdings session.settings ownHeld
        (orderly.sound own ownBuffer _ ownHeld) command
      have stores := congrArg Holdings.stores (reached.trans put)
      rw [congrArg Holdings.buffers (reached.trans put)] at held
      rcases update_eq_some held with ⟨rfl, isOwn⟩ | ⟨different, present⟩
      · cases isOwn
        rw [load_eq ((congrFun stores _).trans (put_stores_self session.holdings name _))]
        exact .performed command ownBuffer context ownHeld
      · obtain ⟨notOn, unmoved⟩ := unaddressed different
        refine transition_kept present notOn kept unmoved ((congrFun stores _).trans ?_) context
        exact orderly.stores_performed different ownHeld present (session.load ownBuffer).context
          session.settings [command]

/-- Whatever the action is, one of the transitions leads to the buffer as it is afterwards. -/
theorem transition (orderly : session.holdings.Orderly) {action : Action} {buffer : Buffer}
    (held : (session.step action).state.buffers.get? name = some buffer)
    (context : Option Context) :
    session.Transition name action ((session.step action).state.holdings.load buffer context) := by
  cases changes : action.changesHoldings with
  | false =>
      obtain ⟨notOn, unmade, unmoved⟩ : action.isOn name = false ∧
          (∀ owner, ¬ action.Makes name owner) ∧ session.moves name action = 0 := by
        cases action with
        | openBuffer | readBuffer | copyBuffer | command => cases changes
        | _ => exact ⟨rfl, fun _ => id, rfl⟩
      exact transition_unchanged (session.holdings_step_of_not_changesHoldings changes) held notOn
        (not_remakes_of_other unmade) unmoved context
  | true =>
      cases action with
      | setSource source content =>
          have followed := session.holdings_setSource source content
          have present := (congrFun (congrArg Holdings.buffers followed) name).symm.trans held
          obtain ⟨earlier, same⟩ := orderly.follow present
          exact transition_kept earlier rfl (not_remakes_of_other fun _ => id) rfl
            ((congrFun (congrArg Holdings.stores followed) _).trans same) context
      | openBuffer own schema visible owner threshold =>
          exact transition_openBuffer orderly rfl held context
      | readBuffer own source limit owner => exact transition_readBuffer orderly rfl held context
      | copyBuffer own source owner => exact transition_copyBuffer orderly rfl held context
      | destroy own =>
          rcases session.holdings_destroy own with same | gone
          · exact transition_unchanged same held rfl (not_remakes_of_other fun _ => id) rfl context
          · have present := (congrFun (congrArg Holdings.buffers gone) name).symm.trans held
            rcases update_eq_some present with ⟨_, isNone⟩ | ⟨_, earlier⟩
            · cases isNone
            · exact transition_kept earlier rfl (not_remakes_of_other fun _ => id) rfl
                (congrFun (congrArg Holdings.stores gone) _) context
      | command own command => exact transition_command orderly rfl held context
      | _ => cases changes

/-! ## Commands -/

theorem perform_context {state : ResultState} (sound : state.Sound) (settings : Settings)
    (command : Command) :
    (state.perform settings command).state.buffer.context = state.buffer.context ∧
      ∃ change : Context → Context,
        (state.perform settings command).state.context = state.context.map change := by
  by_cases closing : command = .close
  · subst closing
    have closes := state.close_closes
    rw [ResultState.perform, ResultState.state_mapAnswer]
    refine ⟨closes.owner, ?_⟩
    cases closed : state.buffer.closed with
    | true => exact ⟨id, by rw [closes.unchanged closed, Option.map_id, id]⟩
    | false => exact ⟨_, closes.context closed⟩
  · have registers := sound.perform_registers settings closing
    exact ⟨registers.owner, _, registers.context⟩

/-- After a command the session has the buffer, its store and its context as the command leaves
them. -/
theorem load_step_command (orderly : session.holdings.Orderly) {buffer : Buffer}
    (held : session.buffers.get? name = some buffer) (command : Command) :
    (session.step (.command name command)).state.load
        ((session.load buffer).perform session.settings command).state.buffer =
      ((session.load buffer).perform session.settings command).state := by
  have sound : (session.load buffer).Sound := orderly.sound name buffer _ held
  obtain ⟨owner, change, context⟩ := perform_context sound session.settings command
  have stored := storeOf_onBuffer_self orderly held command
  have contexts := contexts_onBuffer held (ResultState.perform session.settings command)
  rw [← step, owner, context] at contexts
  have reached : buffer.context.bind (session.step (.command name command)).state.contexts.get? =
      (buffer.context.bind session.contexts.get?).map change := by
    rw [contexts]
    cases own : buffer.context with
    | none => rfl
    | some found =>
        have saved := session.get?_saveContext (some found) change found
        rw [if_pos rfl] at saved
        simp only [load, own]
        exact saved
  rw [load, stored, owner]
  generalize (session.load buffer).perform session.settings command = outcome at owner context
  obtain ⟨answer, ⟨after, store, changed⟩, events⟩ := outcome
  simp only at context
  rw [context]
  exact congrArg (ResultState.mk after store) reached

theorem stepAll_commands (orderly : session.holdings.Orderly) {buffer : Buffer}
    (held : session.buffers.get? name = some buffer) (commands : List Command) :
    (session.stepAll (commands.map (.command name))).1 =
      ((session.load buffer).performAll session.settings commands).1 := by
  induction commands generalizing session buffer with
  | nil => rfl
  | cons command rest ih =>
      have still : (session.step (.command name command)).state.holdings.Orderly :=
        orderly_stepAll orderly [.command name command]
      have others := ih still (buffers_onBuffer_self orderly held command)
      rw [load_step_command orderly held, session.settings_step rfl] at others
      simp only [List.map_cons, stepAll, ResultState.performAll, answer_command held, others]

end Session

end QueryResult
