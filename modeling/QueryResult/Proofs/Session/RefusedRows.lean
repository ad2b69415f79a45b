import QueryResult.Proofs.Session.Contexts
import QueryResult.Proofs.Session.Integrity

/-!
# Refused rows

A row that is refused leaves a session exactly as it is, so that a run can be
told without the attempts to add rows that were refused. The row store of every
buffer is in the session's table, which is why nothing is added to the table
when a buffer is given back its rows.
-/

set_option autoImplicit false

namespace QueryResult

namespace Table

variable {κ α : Type} [DecidableEq κ]

theorem insert_insert (table : Table κ α) (name : κ) (first second : α) :
    (table.insert name first).insert name second = table.insert name second := by
  obtain ⟨entries⟩ := table
  simp only [insert, Table.mk.injEq]
  induction entries with
  | nil => simp [insertEntry]
  | cons entry rest ih =>
      by_cases same : entry.1 = name
      · simp [insertEntry, same]
      · simp [insertEntry, same, ih]

theorem isSome_get?_insert {table : Table κ α} (name : κ) (object : α) {other : κ}
    (present : other = name ∨ (table.get? other).isSome = true) :
    ((table.insert name object).get? other).isSome = true := by
  by_cases same : other = name
  · subst same
    rw [get?_insert_self]
    rfl
  · rw [get?_insert_other table object (Ne.symm same)]
    exact present.resolve_left same

end Table

namespace ResultState

variable {settings : Settings} {state : ResultState}

/-- A refused command leaves its result as it is. -/
theorem refused_perform {command : Command} (unfinalizing : command ≠ .finalize) {fault : Fault}
    (refused : (state.perform settings command).answer = .error fault) :
    (state.perform settings command).state = state := by
  have effect := state.perform_effect settings unfinalizing
  generalize state.perform settings command = outcome at effect refused
  cases effect with
  | refused => rfl
  | _ => cases refused

theorem append_faults {row : Row} {fault : Fault}
    (refused : (state.append row).answer = .error fault) :
    fault = .overThreshold state.buffer.threshold := by
  unfold append at refused
  split at refused
  · cases refused
    rfl
  · cases refused

theorem putDistinct_faults {row : Row} {fault : Fault}
    (refused : (state.putDistinct row).answer = .error fault) :
    fault.Internal ∨ fault = .overThreshold state.buffer.threshold := by
  unfold putDistinct RowKey.ofVisible at refused
  split at refused
  · rename_i missing
    split at missing
    · cases missing
    · cases missing
      cases refused
      exact .inl trivial
  split at refused
  · cases refused
    exact .inl trivial
  dsimp only at refused
  split at refused
  · cases refused
    exact .inr rfl
  · cases refused

theorem Whole.add_faults (whole : state.Whole) (sound : state.Sound) {row : Row} {fault : Fault}
    (refused : (state.add row).answer = .error fault) :
    fault = .rowTooNarrow row.length state.buffer.visible ∨ fault = .addToFinalized ∨
      fault = .overThreshold state.buffer.threshold := by
  have notInternal : ¬ fault.Internal := (whole.add_fails row).accounts refused
  unfold add at refused
  split at refused
  · cases refused
    exact .inl rfl
  split at refused
  · cases refused
    exact .inr (.inl rfl)
  rename_i unfinalized
  rw [if_neg (by simp [sound.unshared (Bool.eq_false_iff.mpr unfinalized)])] at refused
  split at refused
  · exact .inr (.inr ((putDistinct_faults refused).resolve_left notInternal))
  · exact .inr (.inr (append_faults refused))

end ResultState

namespace Session

variable {session : Session}

/-! ## Every store is in the table -/

/-- Every row store that was ever made is still there. -/
def Stocked (session : Session) : Prop :=
  ∀ number < session.nextStore, (session.stores.get? number).isSome = true

theorem Stocked.of_eq (stocked : session.Stocked) {after : Session}
    (sameStores : after.stores = session.stores) (sameNext : after.nextStore = session.nextStore) :
    after.Stocked := by
  unfold Stocked
  rw [sameStores, sameNext]
  exact stocked

theorem Stocked.replace (stocked : session.Stocked) (number : Nat) (store : RowStore) :
    Stocked { session with stores := session.stores.insert number store } :=
  fun other below => Table.isSome_get?_insert number store (.inr (stocked other below))

theorem Stocked.grow (stocked : session.Stocked) (store : RowStore) :
    Stocked
      { session with
        stores := session.stores.insert session.nextStore store
        nextStore := session.nextStore + 1 } := by
  intro other below
  refine Table.isSome_get?_insert session.nextStore store ?_
  rcases Nat.lt_succ_iff_lt_or_eq.mp below with older | fresh
  · exact .inr (stocked other older)
  · exact .inl fresh

theorem Stocked.saveContext (stocked : session.Stocked) (name : Option String)
    (context : Option Context) : (session.saveContext name context).Stocked := by
  refine stocked.of_eq ?_ (congrArg Holdings.nextStore (holdings_saveContext session name context))
  cases name <;> cases context <;> rfl

theorem Stocked.closeBuffer (stocked : session.Stocked) (name : String) :
    (session.closeBuffer name).Stocked := by
  unfold Session.closeBuffer
  split
  · exact stocked
  · exact stocked.saveContext _ _

theorem Stocked.install (stocked : session.Stocked) (name : String) (buffer : Buffer) :
    (session.install name buffer).Stocked :=
  stocked.closeBuffer name

theorem Stocked.openBuffer (stocked : session.Stocked) (name : String) (schema : Option Schema)
    (visible : Nat) (owner : Option String) (threshold : Option UInt64) :
    (session.openBuffer name schema visible owner threshold).state.Stocked := by
  unfold Session.openBuffer
  split
  · exact stocked
  split
  · exact stocked
  · exact (stocked.grow .empty).install name _

theorem Stocked.readBuffer (stocked : session.Stocked) (name source : String) (limit : UInt64)
    (owner : Option String) : (session.readBuffer name source limit owner).state.Stocked := by
  rcases session.readBuffer_cases name source limit owner with ⟨fault, refused⟩ | ⟨buffer, _, read⟩
  · rw [refused]
    exact stocked
  have moved : ∀ after : Buffer,
      Stocked { session with buffers := session.buffers.insert source after } := fun _ => stocked
  rw [read, concludeReading]
  split
  · exact (moved _).saveContext owner _
  · exact (((moved _).saveContext owner _).grow _).install name _

theorem Stocked.copyBuffer (stocked : session.Stocked) (name source : String)
    (owner : Option String) : (session.copyBuffer name source owner).state.Stocked := by
  unfold Session.copyBuffer
  split
  · exact stocked
  split
  · exact stocked
  split
  · exact stocked
  · exact (stocked.replace _ _).install name _

theorem Stocked.destroy (stocked : session.Stocked) (name : String) :
    (session.destroy name).state.Stocked := by
  unfold Session.destroy
  split
  · exact stocked
  · exact stocked.closeBuffer name

theorem Stocked.save (stocked : session.Stocked) (name : String) (state : ResultState) :
    (session.save name state).Stocked := by
  have stored : Stocked
      { session with
        buffers := session.buffers.insert name state.buffer
        stores := session.stores.insert state.buffer.store state.store } := stocked.replace _ _
  exact stored.saveContext _ _

theorem Stocked.onBuffer (stocked : session.Stocked) (name : String)
    (operation : ResultState → Outcome ResultState Answer) :
    (session.onBuffer name operation).state.Stocked := by
  unfold Session.onBuffer
  split
  · exact stocked
  · exact (stocked.replace _ _).save name _

theorem Stocked.step (stocked : session.Stocked) (action : Action) :
    (session.step action).state.Stocked := by
  cases changes : action.changesHoldings with
  | false =>
      have same := session.tables_step_of_not_changesHoldings changes
      exact stocked.of_eq same.stores same.nextStore
  | true =>
      cases action with
      | setSource source content =>
          intro number below
          simp only [Session.step, Outcome.accept, setSource, Table.get?_map, Option.isSome_map]
          exact stocked number below
      | openBuffer name schema visible owner threshold =>
          exact stocked.openBuffer name schema visible owner threshold
      | readBuffer name source limit owner => exact stocked.readBuffer name source limit owner
      | copyBuffer name source owner => exact stocked.copyBuffer name source owner
      | destroy name => exact stocked.destroy name
      | command name command => exact stocked.onBuffer name _
      | _ => cases changes

/-! ## A refused row leaves no trace -/

theorem onBuffer_unchanged (orderly : session.holdings.Orderly) (stocked : session.Stocked)
    {name : String} {buffer : Buffer} (held : session.buffers.get? name = some buffer)
    {operation : ResultState → Outcome ResultState Answer}
    (unchanged : (operation (session.load buffer)).state = session.load buffer) :
    (session.onBuffer name operation).state = session := by
  have numbered : buffer.store < session.nextStore := orderly.numbered name buffer none held
  obtain ⟨store, present⟩ := Option.isSome_iff_exists.mp (stocked buffer.store numbered)
  have loaded : session.storeOf buffer.store = store := by
    rw [storeOf, present]
    rfl
  have sameBuffers : session.buffers.insert name buffer = session.buffers :=
    Table.insert_of_get? held
  have sameStores : (session.stores.insert buffer.store .empty).insert buffer.store store =
      session.stores := by
    rw [Table.insert_insert, Table.insert_of_get? present]
  simp only [Session.onBuffer, held, checkOut, save, unchanged]
  simp only [load, loaded, sameBuffers, sameStores]
  exact saveContext_self session buffer.context

theorem refused_add_unchanged (orderly : session.holdings.Orderly) (stocked : session.Stocked)
    {name : String} {row : Row} {fault : Fault}
    (refused : (session.step (.command name (.add row))).answer = .error fault) :
    (session.step (.command name (.add row))).state = session := by
  cases held : session.buffers.get? name with
  | none =>
      simp only [Session.step, Session.onBuffer, held]
      rfl
  | some buffer =>
      rw [answer_command held] at refused
      exact onBuffer_unchanged orderly stocked held
        (ResultState.refused_perform (by simp) refused)

/-- Whether the action was to add a row and was refused. -/
def isRefusedAdd : Action × Except Fault Answer → Bool
  | (.command _ (.add _), .error _) => true
  | _ => false

theorem step_of_isRefusedAdd (orderly : session.holdings.Orderly) (stocked : session.Stocked)
    {action : Action} (refused : isRefusedAdd (action, (session.step action).answer) = true) :
    (session.step action).state = session := by
  cases action with
  | command name command =>
      cases command with
      | add row =>
          cases answered : (session.step (.command name (.add row))).answer with
          | error fault => exact refused_add_unchanged orderly stocked answered
          | ok answer =>
              rw [answered] at refused
              cases refused
      | _ => cases refused
  | _ => cases refused

/-- What is left of a run without the refused attempts to add rows. -/
def withoutRefusedAdds (actions : List Action) (answers : List (Except Fault Answer)) :
    List (Action × Except Fault Answer) :=
  (actions.zip answers).filter fun step => !isRefusedAdd step

theorem stepAll_withoutRefusedAdds (orderly : session.holdings.Orderly)
    (stocked : session.Stocked) (actions : List Action) :
    let run := session.stepAll actions
    let kept := withoutRefusedAdds actions run.1
    session.stepAll (kept.map Prod.fst) = (kept.map Prod.snd, run.2) := by
  induction actions generalizing session with
  | nil => rfl
  | cons action rest ih =>
      have stillOrderly : (session.step action).state.holdings.Orderly :=
        orderly_stepAll orderly [action]
      have others := ih stillOrderly (stocked.step action)
      dsimp only at others ⊢
      simp only [stepAll, withoutRefusedAdds, List.zip_cons_cons, List.filter_cons]
      cases refused : isRefusedAdd (action, (session.step action).answer) with
      | true =>
          rw [step_of_isRefusedAdd orderly stocked refused] at others ⊢
          exact others
      | false =>
          simp only [Bool.not_false, if_true, List.map_cons, stepAll]
          exact congrArg (fun after => (_ :: after.1, after.2)) others

theorem stocked_stepAll (stocked : session.Stocked) (actions : List Action) :
    (session.stepAll actions).2.Stocked := by
  induction actions generalizing session with
  | nil => exact stocked
  | cons action rest ih => exact ih (stocked.step action)

/-- A row that is refused leaves the session exactly as it is, and a run without its refused rows
gives the same answers and comes to the same session. If no attempt to finalize the result has
failed, a row is refused for its width, for coming after the result was finalized, or for the
threshold. -/
theorem refused_rows_leave_no_trace (actions : List Action) :
    let run := initial.stepAll actions
    let kept := withoutRefusedAdds actions run.1
    (∀ name row fault, (run.2.step (.command name (.add row))).answer = .error fault →
      (run.2.step (.command name (.add row))).state = run.2 ∧
        ∀ buffer, run.2.buffers.get? name = some buffer →
          FinalizesCleanly buffer.store actions initial →
          fault = .rowTooNarrow row.length buffer.visible ∨ fault = .addToFinalized ∨
            fault = .overThreshold buffer.threshold) ∧
      initial.stepAll (kept.map Prod.fst) = (kept.map Prod.snd, run.2) := by
  intro run kept
  have stocked : initial.Stocked := nofun
  have orderly : run.2.holdings.Orderly := orderly_stepAll orderly_initial actions
  refine ⟨?_, stepAll_withoutRefusedAdds orderly_initial stocked actions⟩
  intro name row fault refused
  refine ⟨refused_add_unchanged orderly (stocked_stepAll stocked actions) refused, ?_⟩
  intro buffer held clean
  have sound : (run.2.load buffer).Sound := orderly.sound name buffer _ held
  have whole : (run.2.load buffer).Whole := whole_of_clean clean name buffer _ held rfl
  rw [answer_command held, ResultState.perform] at refused
  generalize added : (run.2.load buffer).add row = outcome at refused
  obtain ⟨answer, after, events⟩ := outcome
  cases answer with
  | error other =>
      cases refused
      exact whole.add_faults sound (congrArg Outcome.answer added)
  | ok _ => cases refused

theorem refused_rows_leave_no_trace_sample :
    let actions : List Action :=
      [.openContext "context" none, .setSource "source" [1],
        .openBuffer "result" (some ⟨[]⟩) 1 (some "context") (some 1),
        .command "result" (.add [.largeObject .blob [1] (.linked "source")]),
        .command "result" (.add [.largeObject .blob [1] (.linked "source")]),
        .command "result" (.add []), .command "result" .finalize]
    let run := initial.stepAll actions
    let kept := withoutRefusedAdds actions run.1
    kept.length + 2 = actions.length ∧
      initial.stepAll (kept.map Prod.fst) = (kept.map Prod.snd, run.2) ∧
      (run.2.step (.command "result" (.add [.integer 1]))).answer = .error .addToFinalized ∧
      (run.2.step (.command "result" (.add [.integer 1]))).state = run.2 := by
  intro actions run kept
  obtain ⟨traceless, sameRun⟩ := refused_rows_leave_no_trace actions
  have refused : (run.2.step (.command "result" (.add [.integer 1]))).answer =
      .error .addToFinalized := by decide +kernel
  exact ⟨by decide +kernel, sameRun, refused, (traceless "result" _ _ refused).1⟩

end Session

end QueryResult
