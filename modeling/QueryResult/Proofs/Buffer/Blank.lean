import QueryResult.Proofs.Buffer.Transfer

/-!
# What buffers see of registered objects

A context can keep objects that are linked to sources. Buffers do not look at
the content of these: blanking it out in the context changes neither the answers
to their commands nor what becomes of their rows.
-/

set_option autoImplicit false

namespace QueryResult

namespace Value

/-- The value without the content that it shows of a source. -/
def blank : Value → Value
  | .largeObject kind _ (.linked source) => .largeObject kind [] (.linked source)
  | value => value

theorem blank_follow (source : String) (content : Bytes) (value : Value) :
    (value.follow source content).blank = value.blank := by
  cases value with
  | largeObject kind shown origin => cases origin <;> rfl
  | _ => rfl

theorem isLinked_blank (value : Value) : value.blank.isLinked = value.isLinked := by
  cases value with
  | largeObject kind shown origin => cases origin <;> rfl
  | _ => rfl

theorem blank_of_not_linked {value : Value} (unlinked : value.isLinked = false) :
    value.blank = value := by
  cases value with
  | largeObject kind shown origin =>
      cases origin with
      | owned => rfl
      | linked source => cases unlinked
  | _ => rfl

/-- A value that depends on no source is told from all others. -/
theorem eq_of_blank_eq {value other : Value} (unlinked : value.isLinked = false)
    (same : value.blank = other.blank) : value = other := by
  have alsoUnlinked : other.isLinked = false := by
    rw [← other.isLinked_blank, ← same, isLinked_blank, unlinked]
  rwa [blank_of_not_linked unlinked, blank_of_not_linked alsoUnlinked] at same

end Value

namespace Context

/-- The context with the objects that are linked to sources blanked out. -/
def blank (context : Context) : Context :=
  { context with
    largeObjects := context.largeObjects.map fun entry => (entry.1, entry.2.blank) }

theorem blank_follow (source : String) (content : Bytes) (context : Context) :
    (context.follow source content).blank = context.blank := by
  simp [blank, follow, Value.blank_follow]

theorem blank_keep (context : Context) (value : Value) :
    (context.keep value).2.blank = (context.blank.keep value.blank).2 := by
  simp [blank, keep]

theorem blank_without (handles : List Nat) (context : Context) :
    (context.without handles).blank = context.blank.without handles := by
  simp [blank, without, List.filter_map, Function.comp_def]

theorem liveCount_blank (context : Context) : context.blank.liveCount = context.liveCount := by
  simp [liveCount, blank]

theorem find?_blank (context : Context) (handle : Nat) :
    context.blank.find? handle = (context.find? handle).map Value.blank := by
  simp [find?, blank, List.find?_map, Function.comp_def]

theorem keepAll_blank {values : List Value} (unlinked : Row.Unlinked values) (context : Context) :
    context.blank.keepAll values =
      ((context.keepAll values).1, (context.keepAll values).2.1.blank,
        (context.keepAll values).2.2) := by
  induction values generalizing context with
  | nil => rfl
  | cons value rest ih =>
      have kept : (context.blank.keep value).2 = (context.keep value).2.blank := by
        rw [blank_keep, Value.blank_of_not_linked (unlinked value List.mem_cons_self)]
      have others := ih (fun other held => unlinked other (.tail _ held)) (context.keep value).2
      simp only [keepAll, kept, others, liveCount_blank]
      rfl

end Context

theorem Row.unlinked_copies (row : Row) : Row.Unlinked row.copies := by
  intro value copied
  obtain ⟨kind, content, rfl⟩ := Row.owned_of_mem_copies copied
  rfl

namespace ResultState

variable {settings : Settings} {state : ResultState}

/-- Blanking out the linked objects of the context. -/
def blanking : Relabeling where
  lookup := id
  store := id
  context := Option.map Context.blank

theorem registersAlike_blanking (row : Row) : state.RegistersAlike blanking row := by
  unfold RegistersAlike registerCopies
  cases held : state.context with
  | none => simp [relabel, blanking, held]
  | some context => simp [relabel, blanking, held, Context.keepAll_blank row.unlinked_copies]

theorem close_blanking :
    (state.relabel blanking).close = state.close.mapState (relabel blanking) := by
  have sameClosed : (state.relabel blanking).buffer.closed = state.buffer.closed := rfl
  have released : ((state.context.map Context.blank).map fun context =>
        context.releaseAll state.buffer.registered) =
      (state.context.map fun context => context.releaseAll state.buffer.registered).map
        Context.blank := by
    simp only [Option.map_map, Function.comp_def, Context.releaseAll_eq, Context.blank_without]
  simp only [close, sameClosed]
  split
  · rfl
  · exact congrArg (fun context => Outcome.accept () { state with
      buffer := { state.buffer with closed := true, current := none, registered := [] }
      context := context } []) released

theorem perform_blanking (settings : Settings) (state : ResultState) (command : Command) :
    (state.relabel blanking).perform settings command =
      (state.perform settings command).mapState (relabel blanking) := by
  by_cases closes : command = .close
  · subst closes
    rw [perform, close_blanking]
    exact Outcome.mapState_mapAnswer _ fun _ _ => rfl
  · exact perform_relabel_of_lookup rfl closes fun row _ => registersAlike_blanking row

/-- The results differ at most in the content of linked objects of their context. -/
structure SameButBlank (left right : ResultState) : Prop where
  buffer : left.buffer = right.buffer
  store : left.store = right.store
  context : left.context.map Context.blank = right.context.map Context.blank

variable {left right : ResultState}

theorem sameButBlank_iff :
    left.SameButBlank right ↔ left.relabel blanking = right.relabel blanking := by
  constructor
  · intro ⟨buffer, store, context⟩
    simp only [relabel, blanking, buffer, store, context]
  · intro same
    have unlabeled : ∀ state : ResultState, (state.relabel blanking).buffer = state.buffer :=
      fun _ => rfl
    refine ⟨?_, congrArg (fun state => state.store) same, congrArg (fun state => state.context) same⟩
    rw [← unlabeled left, same, unlabeled]

theorem SameButBlank.perform (same : left.SameButBlank right) (settings : Settings)
    (command : Command) :
    (left.perform settings command).answer = (right.perform settings command).answer ∧
      (left.perform settings command).state.SameButBlank
        (right.perform settings command).state := by
  have performs : (left.perform settings command).mapState (relabel blanking) =
      (right.perform settings command).mapState (relabel blanking) := by
    rw [← perform_blanking, ← perform_blanking, sameButBlank_iff.mp same]
  exact ⟨congrArg (fun outcome => outcome.answer) performs,
    sameButBlank_iff.mpr (congrArg (fun outcome => outcome.state) performs)⟩

theorem SameButBlank.close (same : left.SameButBlank right) :
    left.close.state.SameButBlank right.close.state := by
  have closes := (same.perform .initial .close).2
  rwa [ResultState.perform, ResultState.perform, state_mapAnswer, state_mapAnswer] at closes

theorem SameButBlank.shallowCopy (same : left.SameButBlank right) (owner : Option String) :
    (left.shallowCopy owner).map (fun result => (result.1.store, result.2)) =
      (right.shallowCopy owner).map fun result => (result.1.store, result.2) := by
  simp only [ResultState.shallowCopy, same.buffer, same.store]
  split <;> rfl

theorem SameButBlank.readInto (same : left.SameButBlank right) {leftTarget rightTarget : ResultState}
    (targets : leftTarget.SameButBlank rightTarget) (unlinked : left.Unlinked) (settings : Settings)
    (count : Nat) :
    let leftRead := ResultState.readInto settings count ⟨left, leftTarget⟩
    let rightRead := ResultState.readInto settings count ⟨right, rightTarget⟩
    leftRead.answer = rightRead.answer ∧
      leftRead.state.source.SameButBlank rightRead.state.source ∧
      leftRead.state.target.SameButBlank rightRead.state.target := by
  intro leftRead rightRead
  have rightUnlinked : ∀ row ∈ right.rows, row.Unlinked := by
    rw [rows, ← same.store]
    exact unlinked.rows
  have samePair : Transfer.relabel blanking blanking ⟨left, leftTarget⟩ =
      Transfer.relabel blanking blanking ⟨right, rightTarget⟩ := by
    simp only [Transfer.relabel, sameButBlank_iff.mp same, sameButBlank_iff.mp targets]
  have reads : leftRead.mapState (Transfer.relabel blanking blanking) =
      rightRead.mapState (Transfer.relabel blanking blanking) := by
    rw [← readInto_relabel blanking blanking count ⟨left, leftTarget⟩ unlinked.rows,
      ← readInto_relabel blanking blanking count ⟨right, rightTarget⟩ rightUnlinked, samePair]
  exact ⟨congrArg (fun outcome => outcome.answer) reads,
    sameButBlank_iff.mpr (congrArg (fun outcome => outcome.state.source) reads),
    sameButBlank_iff.mpr (congrArg (fun outcome => outcome.state.target) reads)⟩

end ResultState

end QueryResult
