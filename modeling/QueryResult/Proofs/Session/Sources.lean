import QueryResult.Proofs.Session.OwnedObjects
import QueryResult.Proofs.Session.Sharing
import QueryResult.Proofs.Session.SourceContent

/-!
# Isolation from sources

Results keep owned copies only, so that what becomes of a source after a row was
added is nothing to the result. Two runs of the same actions that differ in how
sources are changed give the same answers and come to the same buffers, rows and
indexes.
-/

set_option autoImplicit false

namespace QueryResult

namespace Holdings

variable {mayAsk : Nat → Prop} {before after : Holdings}

/-- No row store depends on a source, be it the store of a buffer or not. -/
def StoresUnlinked (holdings : Holdings) : Prop :=
  ∀ number, (holdings.stores number).Unlinked

theorem Orderly.follow_eq (orderly : before.Orderly) (unlinked : before.StoresUnlinked)
    (source : String) (content : Bytes) : before.follow source content = before := by
  have sameStores : (fun number => (before.stores number).follow source content) =
      before.stores := funext fun number => (unlinked number).follow source content
  have sameBuffers : (fun name => (before.buffers name).map (Buffer.follow source content)) =
      before.buffers := by
    funext name
    cases held : before.buffers name with
    | none => rfl
    | some buffer =>
        exact congrArg some ((orderly.unlinked name buffer none held).follow_buffer source content)
  rw [Holdings.follow, sameStores, sameBuffers]

theorem StoresUnlinked.update (unlinked : before.StoresUnlinked) (number : Nat) {store : RowStore}
    (own : store.Unlinked) (other : Nat) :
    (Function.update before.stores number store other).Unlinked := by
  by_cases same : other = number
  · subst same
    rwa [Function.update_self]
  · rw [Function.update_of_ne same]
    exact unlinked other

theorem StoresUnlinked.step (unlinked : before.StoresUnlinked) (orderly : before.Orderly)
    (step : Step mayAsk before after) : after.StoresUnlinked := by
  have performed : ∀ {state : ResultState}, state.Sound → state.Unlinked →
      ∀ (settings : Settings) (commands : List Command),
        (state.performAll settings commands).2.store.Unlinked :=
    fun sound own settings commands =>
      ((kept_unlinked (fun _ => True) 0).performAll sound own settings fun _ _ _ => trivial).store
  cases step with
  | followed source content =>
      rw [orderly.follow_eq unlinked source content]
      exact unlinked
  | performed name buffer context settings commands held =>
      exact unlinked.update _ (performed (orderly.sound name buffer context held)
        (orderly.unlinked name buffer context held) settings commands)
  | made name owner schema visible threshold context settings commands =>
      exact unlinked.update _ (performed (ResultState.sound_opened _ _ _ _ _ _)
        (ResultState.unlinked_opened _ _ _ _ _ _) settings commands)
  | copied name source buffer copy context owner frozen held copied =>
      refine unlinked.update _ ?_
      rw [(shallowCopy_eq copied).2.1]
      exact ⟨(unlinked buffer.store).rows, (unlinked buffer.store).index⟩
  | destroyed name => exact unlinked

theorem StoresUnlinked.steps (unlinked : before.StoresUnlinked) (orderly : before.Orderly)
    (steps : Relation.ReflTransGen (Step mayAsk) before after) :
    after.Orderly ∧ after.StoresUnlinked := by
  induction steps with
  | refl => exact ⟨orderly, unlinked⟩
  | tail _ step ih =>
      obtain ⟨reachedOrderly, reached⟩ := ih
      exact ⟨reachedOrderly.step step, reached.step reachedOrderly step⟩

end Holdings

theorem Context.handles_blank (context : Context) : context.blank.handles = context.handles := by
  simp [handles, blank]

/-- The action changes no source, and uses no free-standing index, in which values can be linked to
sources. -/
def Action.overlooksSources (action : Action) : Bool :=
  !action.changesSource && !action.usesIndexes

namespace Session

variable {session other : Session} {context : String}

/-- What holds of every session: nothing that buffers and row stores hold depends on a source. -/
structure Isolated (session : Session) : Prop where
  wellKept : session.WellKept
  stores : session.holdings.StoresUnlinked

theorem isolated_initial : initial.Isolated where
  wellKept := wellKept_initial
  stores := fun _ => ⟨fun _ held => absurd held List.not_mem_nil, fun _ present => by cases present⟩

theorem Isolated.after (isolated : session.Isolated) (action : Action) :
    (session.step action).state.Isolated where
  wellKept := isolated.wellKept.after action
  stores := by
    have orderly := isolated.wellKept.orderly
    have steps := session.step_holdings (fun _ => True)
      (fun name buffer held => orderly.sound name buffer _ held) action fun _ _ _ _ _ _ => trivial
    exact (isolated.stores.steps orderly steps).2

/-- A change of a source is to be seen in sources, free-standing indexes and linked objects only. -/
theorem Isolated.setSource_unseen (isolated : session.Isolated) (source : String) (content : Bytes) :
    SameButSources (session.setSource source content) session where
  settings := rfl
  logging := rfl
  contexts := by
    intro name
    have sameBlank : Context.blank ∘ Context.follow source content = Context.blank :=
      funext (Context.blank_follow source content)
    simp only [Session.setSource, Table.get?_map, Option.map_map, sameBlank]
  holdings := by
    rw [holdings_setSource]
    exact isolated.wellKept.orderly.follow_eq isolated.stores source content

/-! ## Runs -/

/-- The actions other than those that change sources. -/
def withoutSourceChanges (actions : List Action) : List Action :=
  actions.filter fun action => !action.changesSource

/-- Leaving out the changes of sources changes no answer of an action that overlooks them. -/
theorem SameButSources.run (same : SameButSources session other) (isolated : session.Isolated)
    (actions : List Action) :
    answersTo Action.overlooksSources actions session =
        answersTo Action.overlooksSources (withoutSourceChanges actions) other ∧
      SameButSources (session.stepAll actions).2
        (other.stepAll (withoutSourceChanges actions)).2 := by
  induction actions generalizing session other with
  | nil => exact ⟨rfl, same⟩
  | cons action rest ih =>
      cases changes : action.changesSource with
      | true =>
          -- Left out on the right, and on the left nothing that counts changes.
          have unseen : SameButSources (session.step action).state session := by
            cases action with
            | setSource source content => exact isolated.setSource_unseen source content
            | _ => cases changes
          obtain ⟨answers, final⟩ := ih (unseen.trans same) (isolated.after action)
          have unanswered : action.overlooksSources = false := by
            simp [Action.overlooksSources, changes]
          rw [withoutSourceChanges, List.filter_cons_of_neg (by simp [changes]), answersTo,
            unanswered]
          exact ⟨answers, final⟩
      | false =>
          have sameAfter := same.step isolated.wellKept.orderly changes
          obtain ⟨answers, final⟩ := ih sameAfter (isolated.after action)
          rw [withoutSourceChanges, List.filter_cons_of_pos (by simp [changes]), answersTo,
            answersTo, answers]
          refine ⟨?_, final⟩
          cases uses : action.usesIndexes with
          | true => simp only [Action.overlooksSources, changes, uses]; rfl
          | false =>
              rw [(same.agree_step isolated.wellKept.orderly changes uses).1]
              rfl

theorem SameButSources.nextHandle (same : SameButSources session other) (context : String) :
    session.nextHandle context = other.nextHandle context := by
  have sameHere := congrArg (fun own => own.elim 1 Context.nextHandle) (same.contexts context)
  rwa [Option.elim_map, Option.elim_map] at sameHere

theorem SameButSources.liveHandles (same : SameButSources session other) (context : String) :
    session.liveHandles context = other.liveHandles context := by
  have sameHere := congrArg (fun own => own.elim [] Context.handles) (same.contexts context)
  simp only [Option.elim_map, Function.comp_def, Context.handles_blank] at sameHere
  exact sameHere

theorem SameButSources.object? (same : SameButSources session other) (context : String)
    (handle : Nat) :
    (session.object? context handle).map Value.blank =
      (other.object? context handle).map Value.blank := by
  have blanked : ∀ session : Session, (session.object? context handle).map Value.blank =
      ((session.contexts.get? context).map Context.blank).bind fun own => own.find? handle := by
    intro session
    unfold Session.object?
    cases session.contexts.get? context with
    | none => rfl
    | some own => exact (own.find?_blank handle).symm
  rw [blanked, blanked, same.contexts]

/-- Nothing that buffers hold or have registered under these handles depends on a source, and both
sessions hold the same. -/
structure SameResults (one other : Session) (registered : String → List Nat) : Prop where
  /-- No value in the rows, the index or the private index of a buffer is linked. -/
  unlinked : ∀ name buffer, one.buffers.get? name = some buffer → (one.load buffer).Unlinked
  buffers : ∀ name, one.buffers.get? name = other.buffers.get? name
  /-- Rows, and the keys of indexes with the hashes they were given, are the same. -/
  stores : ∀ number, one.storeOf number = other.storeOf number
  handles : ∀ context, one.nextHandle context = other.nextHandle context ∧
    one.liveHandles context = other.liveHandles context
  /-- No registered object is linked, and each is the same in both sessions. -/
  objects : ∀ context, ∀ handle ∈ registered context,
    (∀ value, one.object? context handle = some value → value.isLinked = false) ∧
      one.object? context handle = other.object? context handle

theorem SameButSources.sameResults (same : SameButSources session other)
    (orderly : session.holdings.Orderly) {registered : String → List Nat}
    (kept : ∀ context, session.KeepsOwned context (registered context)) :
    SameResults session other registered where
  unlinked := fun name buffer held => orderly.unlinked name buffer _ held
  buffers := same.held
  stores := congrFun (congrArg Holdings.stores same.holdings)
  handles := fun context => ⟨same.nextHandle context, same.liveHandles context⟩
  objects := by
    intro context handle listed
    have unlinked : ∀ value, session.object? context handle = some value →
        value.isLinked = false :=
      fun value found => kept context _ (mem_objects found) listed
    refine ⟨unlinked, ?_⟩
    have sameBlank := same.object? context handle
    cases found : session.object? context handle with
    | none =>
        rw [found] at sameBlank
        exact (Option.map_eq_none_iff.mp sameBlank.symm).symm
    | some value =>
        rw [found] at sameBlank
        obtain ⟨otherValue, otherFound, alike⟩ := Option.map_eq_some_iff.mp sameBlank.symm
        rw [otherFound, Value.eq_of_blank_eq (unlinked value found) alike.symm]

/-- Results are isolated from sources. Two runs of the same actions that differ only in the changes
of sources give the same answers, apart from those of free-standing indexes. They end with the same
buffers, rows, indexes and registered objects, none of which depends on a source. -/
theorem results_isolated_from_sources (first second : List Action)
    (same : withoutSourceChanges first = withoutSourceChanges second) :
    let one := (initial.stepAll first).2
    let other := (initial.stepAll second).2
    answersTo Action.overlooksSources first initial =
        answersTo Action.overlooksSources second initial ∧
      SameResults one other fun context =>
        handedOut (fun _ action => action.usesBuffers) context first initial := by
  intro one other
  have nothing := SameButSources.refl initial
  obtain ⟨firstAnswers, firstFinal⟩ := nothing.run isolated_initial first
  obtain ⟨secondAnswers, secondFinal⟩ := nothing.run isolated_initial second
  rw [← same] at secondAnswers secondFinal
  refine ⟨firstAnswers.trans secondAnswers.symm, ?_⟩
  refine (firstFinal.trans secondFinal.symm).sameResults (orderly_stepAll orderly_initial first)
    fun context => ?_
  have unregistered : initial.KeepsOwned context [] := fun _ _ handed => absurd handed List.not_mem_nil
  exact unregistered.afterAll wellKept_initial (fun _ handed => absurd handed List.not_mem_nil) first

theorem results_isolated_from_sources_sample :
    let linked := Value.largeObject .blob [1] (.linked "text")
    let copied := Value.largeObject .blob [1] .owned
    let earlier : List Action :=
      [.setSource "text" [1], .openContext "main" none,
        .openBuffer "result" (some ⟨[]⟩) 1 (some "main") none, .command "result" .setDistinct,
        .command "result" (.add [linked, linked])]
    let later : List Action :=
      [.command "result" (.contains [linked]), .command "result" .finalize,
        .command "result" .next]
    let one := (initial.stepAll (earlier ++ .setSource "text" [2] :: later)).2
    let other := (initial.stepAll (earlier ++ later)).2
    one.sources.get? "text" = some [2] ∧ other.sources.get? "text" = some [1] ∧
      (answersTo Action.overlooksSources (earlier ++ .setSource "text" [2] :: later) initial).drop 4 =
        [.ok (.flag true), .ok .done, .ok (.step true (some [copied, copied]))] ∧
      answersTo Action.overlooksSources (earlier ++ .setSource "text" [2] :: later) initial =
        answersTo Action.overlooksSources (earlier ++ later) initial ∧
      one.object? "main" 1 = some copied ∧ one.object? "main" 1 = other.object? "main" 1 := by
  intro linked copied earlier later one other
  obtain ⟨answers, results⟩ := results_isolated_from_sources
    (earlier ++ .setSource "text" [2] :: later) (earlier ++ later) (by decide +kernel)
  refine ⟨by decide +kernel, by decide +kernel, by decide +kernel, answers, by decide +kernel, ?_⟩
  exact (results.objects "main" 1 (by decide +kernel)).2

end Session

end QueryResult
