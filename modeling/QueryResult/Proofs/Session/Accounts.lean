import QueryResult.Proofs.Session.Registrations

/-!
# The accounts of contexts

What is registered with the contexts of a session is accounted for action by
action: who registers what under which handle, and who ends which registrations.
-/

set_option autoImplicit false

namespace QueryResult.Session

variable {session : Session} {name context : String} {buffer : Buffer}

theorem ownHandles_of_finalized (wellKept : session.WellKept)
    (held : session.buffers.get? name = some buffer) (finalized : buffer.finalized = true)
    {actions : List Action} (stays : ∀ action ∈ actions, action.replaces name = false)
    (context : String) : ownHandles name context actions session = [] := by
  induction actions generalizing session buffer with
  | nil => rfl
  | cons action rest ih =>
      obtain ⟨after, stillHeld, stillFinalized⟩ :=
        finalized_step wellKept.orderly held finalized (stays action List.mem_cons_self)
      have others := ih (wellKept.after action) stillHeld stillFinalized
        fun other listed => stays other (List.mem_cons_of_mem _ listed)
      -- A finalized buffer refuses every row, so that no command on it registers anything.
      have nothing : action.isOn name = true → session.handsOut action context = [] := by
        intro isOn
        obtain ⟨command, rfl⟩ := Action.eq_command_of_isOn isOn
        rw [wellKept.handsOut_command held, answer_command held,
          ResultState.registrations_of_finalized session.settings finalized,
          ResultState.handlesFor_nil, ite_self]
      rw [ownHandles] at others ⊢
      rw [handedOut, others, List.append_nil, ite_eq_right_iff]
      exact nothing

/-- What single actions do to the objects that are registered with contexts. -/
structure KeepsAccounts (session : Session) : Prop where
  /-- An object that is registered directly gets the next handle. -/
  registered : ∀ context own value, session.contexts.get? context = some own →
    value.type.isLargeObject = true →
    (session.step (.registerObject context value)).answer = .ok (.handle own.nextHandle) ∧
      ∀ other, (session.step (.registerObject context value)).state.contexts.get? other =
        (session.contexts.get? other).map
          (if other = context then Context.registering [value] else id)
  /-- Releasing a handle ends its registration and no other one. -/
  released : ∀ context handle other,
    (session.step (.releaseObject context handle)).state.contexts.get? other =
      (session.contexts.get? other).map
        (if other = context then Context.without [handle] else id)
  /-- A command other than closing registers the copies of a row that it accepts, in order, and does
  nothing else to contexts. -/
  performed : ∀ name buffer command context, session.buffers.get? name = some buffer →
    command ≠ .close →
    (session.step (.command name command)).state.contexts.get? context =
      (session.contexts.get? context).map
        (if buffer.context = some context then
          Context.registering
            (command.registrations (session.step (.command name command)).answer)
        else id)
  /-- A row that is accepted is held with the registered objects where it was given linked ones. -/
  added : ∀ name buffer row, session.buffers.get? name = some buffer →
    (session.step (.command name (.add row))).answer = .ok .done →
    (∃ after pending, (session.step (.command name (.add row))).state.buffers.get? name = some after ∧
      ((session.step (.command name (.add row))).state.load after).pending? = some pending ∧
      row.detached ∈ pending) ∧
      row.copies =
        ((row.zip row.detached).filter fun places => places.1.isLinked).map Prod.snd ∧
      ∀ copied ∈ row.copies, ∃ kind content, copied = .largeObject kind content .owned
  /-- Making a buffer or a copy does to contexts what destroying the buffer does that had its name,
  and nothing if there was none. -/
  made : ∀ making name owner threshold context, making.Makes name owner →
    (session.step making).answer = .ok (.threshold threshold) →
    (session.step making).state.contexts.get? context =
        (session.step (.destroy name)).state.contexts.get? context ∧
      (session.buffers.get? name = none →
        (session.step making).state.contexts.get? context = session.contexts.get? context)
  /-- If no buffer is made, nothing is registered and nothing released. -/
  unmade : ∀ making name owner context, making.Makes name owner →
    (∀ threshold, (session.step making).answer ≠ .ok (.threshold threshold)) →
    (session.step making).state.contexts.get? context = session.contexts.get? context

theorem WellKept.keepsAccounts (wellKept : session.WellKept) : session.KeepsAccounts where
  registered := by
    intro context own value held isLarge
    simp only [step, held, Context.register, isLarge, if_true]
    refine ⟨rfl, fun other => ?_⟩
    by_cases same : other = context
    · subst same
      simp only [Outcome.accept, Table.get?_insert_self, held, if_true, Option.map_some]
      rfl
    · simp only [Outcome.accept, Table.get?_insert_other _ _ (Ne.symm same), same, if_false,
        Option.map_id, id]
  released := by
    intro context handle other
    simp only [step, onContext]
    by_cases same : other = context
    · subst same
      cases held : session.contexts.get? other with
      | none => simp [Outcome.refuse, held]
      | some own =>
          simp [Outcome.accept, Table.get?_insert_self, own.release_eq]
    · cases held : session.contexts.get? context with
      | none => simp [Outcome.refuse, same]
      | some own => simp [Outcome.accept, Table.get?_insert_other _ _ (Ne.symm same), same]
  performed := fun name buffer command context held stays =>
    contexts_command held (wellKept.orderly.sound name buffer _ held) stays context
  added := by
    intro name buffer row held accepted
    have sound : (session.load buffer).Sound := wellKept.orderly.sound name buffer _ held
    rw [answer_command held, ResultState.perform] at accepted
    have added : ((session.load buffer).add row).answer = .ok () := by
      generalize (session.load buffer).add row = outcome at accepted
      obtain ⟨answer, after, events⟩ := outcome
      cases answer with
      | error fault => cases accepted
      | ok answer => rfl
    obtain ⟨pending, gathered, kept⟩ := sound.add_keeps added
    have performed : ((session.load buffer).perform session.settings (.add row)).state =
        ((session.load buffer).add row).state := ResultState.state_mapAnswer _ _
    have stored := storeOf_onBuffer_self wellKept.orderly held (.add row)
    refine ⟨⟨_, pending, buffers_onBuffer_self wellKept.orderly held (.add row), ?_, kept⟩,
      row.copies_eq, fun _ => Row.owned_of_mem_copies⟩
    rw [ResultState.pending?, ResultState.rows, load, stored, performed]
    exact gathered
  made := by
    intro making name owner threshold context makes accepted
    obtain ⟨_, contexts⟩ := new_of_makes wellKept.orderly makes accepted
    rw [contexts_destroy]
    refine ⟨contexts context, fun unheld => ?_⟩
    rw [contexts, closing_eq_id unheld, Option.map_id, id]
  unmade := by
    intro making name owner context makes refused
    cases step_making wellKept.orderly makes with
    | failed _ contexts => exact contexts context
    | made threshold _ answered => exact absurd answered (refused threshold)

/-- In every session, the accounts of the contexts are exact: each handle is given out once; single
actions register and release what they should; and closing or destroying a buffer ends the
registrations that this buffer made, of which a copy has none, and no other ones. -/
theorem objects_accounted (actions : List Action) :
    let session := (initial.stepAll actions).2
    (∀ context, handedOut (fun _ _ => true) context actions initial =
        List.range' 1 (session.nextHandle context - 1)) ∧
      session.KeepsAccounts ∧
      ∀ (earlier during : List Action) (making : Action) (name : String) (owner : Option String),
        actions = earlier ++ making :: during → BufferRun earlier making during name owner →
        ∀ context,
          let made := ((initial.stepAll earlier).2.step making).state
          let own := ownHandles name context during made
          let ends := if session.isClosed name then id else Context.without own
          (session.step (.command name .close)).state.contexts.get? context =
              (session.contexts.get? context).map ends ∧
            (session.step (.destroy name)).state.contexts.get? context =
              (session.contexts.get? context).map ends ∧
            ((∃ source, making = .copyBuffer name source owner) → own = []) := by
  intro session
  have wellKept : session.WellKept := wellKept_initial.afterAll actions
  refine ⟨fun context => (wellKept_initial.handedOut_eq actions context).2, wellKept.keepsAccounts,
    ?_⟩
  intro earlier during making name owner split run context made own ends
  have reached : session = (made.stepAll during).2 := by
    simp only [session, split, stepAll_append]
    rfl
  obtain ⟨madeKept, _, after, tracks⟩ := run.tracks context
  have closing : session.closing name context = ends := by
    simp only [ends, reached]
    exact tracks.closing_eq
  refine ⟨closing ▸ session.contexts_close name context,
    closing ▸ session.contexts_destroy name context, ?_⟩
  rintro ⟨source, rfl⟩
  obtain ⟨threshold, accepted⟩ := run.accepted
  obtain ⟨copy, held, finalized⟩ := finalized_copyBuffer accepted
  exact ownHandles_of_finalized madeKept held finalized run.stays context

theorem objects_accounted_sample :
    let linked := Value.largeObject .blob [120] (.linked "text")
    let earlier : List Action :=
      [.openContext "main" none, .registerObject "main" (.largeObject .clob [121] .owned)]
    let making := Action.openBuffer "result" (some ⟨[]⟩) 1 (some "main") none
    let during : List Action := [.command "result" (.add [linked, linked])]
    let session := (initial.stepAll (earlier ++ making :: during)).2
    let destroyed := (session.step (.destroy "result")).state
    (session.contexts.get? "main").map Context.largeObjects =
        some [(1, .largeObject .clob [121] .owned), (2, .largeObject .blob [120] .owned),
          (3, .largeObject .blob [120] .owned)] ∧
      (destroyed.contexts.get? "main").map Context.largeObjects =
        some [(1, .largeObject .clob [121] .owned)] := by
  intro linked earlier making during session destroyed
  have run : BufferRun earlier making during "result" (some "main") :=
    ⟨⟨rfl, rfl⟩, ⟨_, rfl⟩, by decide +kernel⟩
  have accounted := (objects_accounted (earlier ++ making :: during)).2.2 earlier during making
    "result" (some "main") rfl run "main"
  refine ⟨by decide +kernel, ?_⟩
  rw [accounted.2.1]
  decide +kernel

end QueryResult.Session
