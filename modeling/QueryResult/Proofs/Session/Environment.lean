import QueryResult.Proofs.Session.Contexts

/-!
# Settings and thresholds

Operations on buffers leave the settings alone, and the thresholds of the
contexts. What other actions make of these depends on nothing else.
-/

set_option autoImplicit false

namespace QueryResult

/-- The action is an operation on some buffer. -/
def Action.usesBuffers : Action → Bool
  | .openBuffer .. | .readBuffer .. | .copyBuffer .. | .destroy _ | .command .. => true
  | _ => false

namespace Session

variable {session other : Session} {name context : String} {own : Context} {action : Action}

theorem settings_saveContext (session : Session) (owner : Option String)
    (context : Option Context) : (session.saveContext owner context).settings = session.settings := by
  unfold saveContext
  split <;> rfl

theorem settings_closeBuffer (session : Session) (name : String) :
    (session.closeBuffer name).settings = session.settings := by
  unfold closeBuffer
  split
  · rfl
  · exact settings_saveContext _ _ _

theorem settings_step (session : Session) (uses : action.usesBuffers = true) :
    (session.step action).state.settings = session.settings := by
  cases action with
  | openBuffer name schema visible owner threshold =>
      simp only [step, openBuffer]
      split
      · rfl
      split
      · rfl
      · exact settings_closeBuffer _ _
  | readBuffer name source limit owner =>
      simp only [step, readBuffer]
      split
      · rfl
      split
      · rfl
      split
      · exact settings_saveContext _ _ _
      · exact (settings_closeBuffer _ _).trans (settings_saveContext _ _ _)
  | copyBuffer name source owner =>
      simp only [step, copyBuffer]
      split
      · rfl
      split
      · rfl
      split
      · rfl
      · exact settings_closeBuffer _ _
  | destroy name =>
      simp only [step, destroy]
      split
      · rfl
      · exact settings_closeBuffer _ _
  | command name command =>
      simp only [step, onBuffer]
      split
      · rfl
      · exact settings_saveContext _ _ _
  | _ => cases uses

/-- The thresholds of the contexts. -/
def thresholds (session : Session) (context : String) : Option UInt64 :=
  (session.contexts.get? context).map Context.threshold

theorem thresholds_of_map {after : Session} {change : Context → Context}
    (same : ∀ own : Context, (change own).threshold = own.threshold)
    (contexts : after.contexts.get? context = (session.contexts.get? context).map change) :
    after.thresholds context = session.thresholds context := by
  rw [thresholds, contexts, Option.map_map]
  exact congrArg (fun change => (session.contexts.get? context).map change) (funext same)

theorem threshold_closing (session : Session) (name context : String) (own : Context) :
    (session.closing name context own).threshold = own.threshold := by
  cases held : session.buffers.get? name with
  | none => rw [closing_eq_id held, id]
  | some buffer =>
      rw [closing_eq held]
      unfold Buffer.closing
      split <;> rfl

theorem thresholds_step (orderly : session.holdings.Orderly) (uses : action.usesBuffers = true) :
    (session.step action).state.thresholds = session.thresholds := by
  funext context
  have closed : ∀ {name : String} {after : Session},
      after.contexts.get? context =
        (session.contexts.get? context).map (session.closing name context) →
      after.thresholds context = session.thresholds context :=
    fun contexts => thresholds_of_map (session.threshold_closing _ context) contexts
  have made : ∀ {name : String} {owner : Option String}, action.Makes name owner →
      (session.step action).state.thresholds context = session.thresholds context := by
    intro name owner makes
    cases step_making orderly makes with
    | failed _ contexts => rw [thresholds, contexts, thresholds]
    | made _ _ _ _ _ contexts => exact closed (contexts context)
  cases action with
  | openBuffer name schema visible owner threshold => exact made ⟨rfl, rfl⟩
  | readBuffer name source limit owner => exact made ⟨rfl, rfl⟩
  | copyBuffer name source owner => exact made ⟨rfl, rfl⟩
  | destroy name => exact closed (session.contexts_destroy name context)
  | command name command =>
      cases held : session.buffers.get? name with
      | none =>
          simp only [step, onBuffer, held]
          rfl
      | some buffer =>
          by_cases closes : command = .close
          · subst closes
            exact closed (session.contexts_close name context)
          · refine thresholds_of_map (fun own => ?_)
              (contexts_command held (orderly.sound name buffer _ held) closes context)
            split <;> rfl
  | _ => cases uses

theorem thresholds_insert (session : Session) (name : String) (own : Context) :
    thresholds { session with contexts := session.contexts.insert name own } =
      Function.update session.thresholds name (some own.threshold) := by
  funext context
  rw [thresholds, Table.get?_insert]
  by_cases same : context = name
  · subst same
    rw [Function.update_self, Function.update_self]
    rfl
  · rw [Function.update_of_ne same, Function.update_of_ne same]
    rfl

theorem thresholds_insert_same (held : session.contexts.get? name = some own) {changed : Context}
    (same : changed.threshold = own.threshold) :
    thresholds { session with contexts := session.contexts.insert name changed } =
      session.thresholds := by
  rw [thresholds_insert, same]
  refine Function.update_eq_self_iff.mpr ?_
  rw [thresholds, held]
  rfl

theorem missing_of_thresholds (same : session.thresholds = other.thresholds)
    (missing : session.contexts.get? name = none) : other.contexts.get? name = none := by
  have sameHere := congrFun same name
  rw [thresholds, thresholds, missing] at sameHere
  exact Option.map_eq_none_iff.mp sameHere.symm

theorem held_of_thresholds (same : session.thresholds = other.thresholds)
    (held : session.contexts.get? name = some own) :
    ∃ otherOwn, other.contexts.get? name = some otherOwn ∧ otherOwn.threshold = own.threshold := by
  have sameHere := congrFun same name
  rw [thresholds, thresholds, held] at sameHere
  exact Option.map_eq_some_iff.mp sameHere.symm

theorem checkContext_of_thresholds (same : session.thresholds = other.thresholds)
    (owner : Option String) : session.checkContext owner = other.checkContext owner := by
  cases owner with
  | none => rfl
  | some name =>
      cases held : session.contexts.get? name with
      | none => simp only [checkContext, held, missing_of_thresholds same held]
      | some own =>
          obtain ⟨otherOwn, otherHeld, _⟩ := held_of_thresholds same held
          simp only [checkContext, held, otherHeld]

theorem inheritedThreshold_of_thresholds (same : session.thresholds = other.thresholds)
    (owner : Option String) :
    session.inheritedThreshold owner = other.inheritedThreshold owner := by
  cases owner with
  | none => rfl
  | some name =>
      cases held : session.contexts.get? name with
      | none =>
          simp only [inheritedThreshold, Option.bind_some, held, missing_of_thresholds same held]
      | some own =>
          obtain ⟨otherOwn, otherHeld, sameThreshold⟩ := held_of_thresholds same held
          simp only [inheritedThreshold, Option.bind_some, held, otherHeld, sameThreshold]

theorem thresholds_openContext (sameSettings : session.settings = other.settings)
    (same : session.thresholds = other.thresholds) (name : String) (threshold : Option UInt64) :
    (session.openContext name threshold).state.thresholds =
      (other.openContext name threshold).state.thresholds := by
  have sameDefault : session.settings.rowThreshold = other.settings.rowThreshold := by
    rw [sameSettings]
  simp only [openContext, sameDefault]
  cases held : session.contexts.get? name with
  | some own =>
      obtain ⟨otherOwn, otherHeld, _⟩ := held_of_thresholds same held
      rw [otherHeld]
      exact same
  | none =>
      rw [missing_of_thresholds same held]
      dsimp only
      split
      · exact same
      · simp only [Outcome.accept, thresholds_insert, same]

theorem settings_openContext (session : Session) (name : String) (threshold : Option UInt64) :
    (session.openContext name threshold).state.settings = session.settings := by
  unfold openContext
  split
  · rfl
  · dsimp only
    split <;> rfl

/-- Settings and thresholds after an action that uses no buffer depend only on those before it. -/
theorem environment_step (sameSettings : session.settings = other.settings)
    (same : session.thresholds = other.thresholds) (unused : action.usesBuffers = false) :
    (session.step action).state.settings = (other.step action).state.settings ∧
      (session.step action).state.thresholds = (other.step action).state.thresholds := by
  -- Most actions leave both alone, whatever the session is.
  have unaffected : (∀ session : Session,
      (session.step action).state.settings = session.settings ∧
        (session.step action).state.thresholds = session.thresholds) →
      (session.step action).state.settings = (other.step action).state.settings ∧
        (session.step action).state.thresholds = (other.step action).state.thresholds :=
    fun each => ⟨(each session).1.trans (sameSettings.trans (each other).1.symm),
      (each session).2.trans (same.trans (each other).2.symm)⟩
  cases action with
  | openBuffer | readBuffer | copyBuffer | destroy | command => cases unused
  | setSetting name value => exact ⟨congrArg (Settings.set · name value) sameSettings, same⟩
  | resetSettings => exact ⟨rfl, same⟩
  | setSource source content =>
      refine unaffected fun session => ⟨rfl, funext fun context => ?_⟩
      have same : ∀ own : Context, (own.follow source content).threshold = own.threshold :=
        fun _ => rfl
      exact thresholds_of_map same (Table.get?_map session.contexts _ context)
  | openContext name threshold =>
      refine ⟨?_, thresholds_openContext sameSettings same name threshold⟩
      rw [step, step, settings_openContext, settings_openContext, sameSettings]
  | setContextThreshold name threshold =>
      simp only [step, onContext]
      cases held : session.contexts.get? name with
      | some own =>
          obtain ⟨otherOwn, otherHeld, _⟩ := held_of_thresholds same held
          rw [otherHeld]
          refine ⟨sameSettings, ?_⟩
          simp only [Outcome.accept, thresholds_insert, same]
      | none =>
          rw [missing_of_thresholds same held]
          exact ⟨sameSettings, same⟩
  | registerObject name value =>
      refine unaffected fun session => ?_
      simp only [step]
      split
      · exact ⟨rfl, rfl⟩
      rename_i own held
      split
      · exact ⟨rfl, rfl⟩
      · rename_i handle changed registered
        refine ⟨rfl, thresholds_insert_same held ?_⟩
        unfold Context.register at registered
        split at registered
        · cases registered
          rfl
        · cases registered
  | releaseObject name handle =>
      refine unaffected fun session => ?_
      simp only [step, onContext]
      split
      · exact ⟨rfl, rfl⟩
      · rename_i own held
        exact ⟨rfl, thresholds_insert_same held rfl⟩
  | putRow index row visible | removeRow index row visible | hasRow index row visible
  | findRow index row visible =>
      refine unaffected fun session => ?_
      simp only [step, onIndex]
      split
      · exact ⟨rfl, rfl⟩
      · split <;> exact ⟨rfl, rfl⟩
  | takeRows index =>
      refine unaffected fun session => ?_
      simp only [step]
      split <;> exact ⟨rfl, rfl⟩
  | _ => exact ⟨sameSettings, same⟩

end Session

end QueryResult
