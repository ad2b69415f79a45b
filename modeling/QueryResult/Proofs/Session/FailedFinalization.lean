import QueryResult.Proofs.Session.UnseenRows

/-!
# Refused finalizations

Whether finalizing a buffer was tried and refused cannot be told by anything
that is done in the session afterwards, except for a distinct result that is not
random access: it has lost its index and can never be finalized.
-/

set_option autoImplicit false

namespace QueryResult.Session

variable {session : Session} {name : String} {buffer : Buffer} {fault : Fault}

/-- A buffer of a session that is not finalized, and for which finalizing is refused. -/
structure RefusesFinalization (session : Session) (name : String) (buffer : Buffer)
    (fault : Fault) : Prop where
  orderly : session.holdings.Orderly
  held : session.buffers.get? name = some buffer
  unfinalized : buffer.finalized = false
  refused : (session.step (.command name .finalize)).answer = .error fault

namespace RefusesFinalization

theorem sound (refuses : session.RefusesFinalization name buffer fault) :
    (session.load buffer).Sound :=
  refuses.orderly.sound name buffer _ refuses.held

theorem answer (refuses : session.RefusesFinalization name buffer fault) :
    ((session.load buffer).finalize session.settings).answer = .error fault := by
  have refused := refuses.refused
  rw [answer_command refuses.held, ResultState.perform] at refused
  generalize (session.load buffer).finalize session.settings = outcome at refused
  obtain ⟨answer, after, events⟩ := outcome
  cases answer with
  | error other =>
      cases refused
      rfl
  | ok _ => cases refused

theorem sameButStores (refuses : session.RefusesFinalization name buffer fault) :
    SameButStores (session.step (.command name .finalize)).state session := by
  obtain ⟨sameBuffer, sameContext⟩ :=
    refuses.sound.refused_finalize_buffer refuses.unfinalized refuses.answer
  have sameBuffers : session.buffers.insert name buffer = session.buffers :=
    Table.insert_of_get? refuses.held
  simp only [step, onBuffer, refuses.held, save, checkOut, ResultState.perform,
    ResultState.state_mapAnswer, sameBuffer, sameContext]
  simp only [load, sameBuffers]
  exact ⟨_, saveContext_self (session.withStores _) buffer.context⟩

theorem load_after (refuses : session.RefusesFinalization name buffer fault) :
    (session.step (.command name .finalize)).state.load buffer =
      ((session.load buffer).finalize session.settings).state := by
  obtain ⟨sameBuffer, sameContext⟩ :=
    refuses.sound.refused_finalize_buffer refuses.unfinalized refuses.answer
  have performed : ((session.load buffer).perform session.settings .finalize).state =
      ((session.load buffer).finalize session.settings).state := ResultState.state_mapAnswer _ _
  have stored := storeOf_onBuffer_self refuses.orderly refuses.held .finalize
  obtain ⟨stores, after⟩ := refuses.sameButStores
  rw [performed, sameBuffer] at stored
  have sameStore : (session.step (.command name .finalize)).state.storeOf buffer.store =
      ((session.load buffer).finalize session.settings).state.store := stored
  have sameContexts : (session.step (.command name .finalize)).state.contexts =
      session.contexts := by
    rw [after]
    rfl
  rw [load, sameStore, sameContexts]
  generalize (session.load buffer).finalize session.settings = outcome at sameBuffer sameContext
  obtain ⟨answer, ⟨_, _, _⟩, events⟩ := outcome
  cases sameBuffer
  cases sameContext
  rfl

theorem sameButRows (refuses : session.RefusesFinalization name buffer fault)
    (keeps : ¬ (session.load buffer).LosesIndex) :
    SameButRows (session.step (.command name .finalize)).state session where
  others := refuses.sameButStores
  holdings := by
    have states :=
      refuses.sound.refused_finalize refuses.unfinalized refuses.answer keeps
    have equal : session.holdings.SameButRows session.holdings :=
      ⟨rfl, fun _ _ _ _ => .inl rfl⟩
    -- The buffer is replaced on the left by what is left of it, and on the right by itself.
    have put := equal.replace refuses.orderly refuses.held states rfl fun _ => rfl
    have unchanged : session.holdings.put name (session.load buffer) = session.holdings :=
      session.holdings.put_load refuses.held _
    rw [step, onBuffer_holdings _ refuses.held refuses.sound, ResultState.perform,
      ResultState.state_mapAnswer]
    rwa [unchanged] at put

theorem buffers_after (refuses : session.RefusesFinalization name buffer fault) :
    (session.step (.command name .finalize)).state.buffers = session.buffers := by
  obtain ⟨stores, same⟩ := refuses.sameButStores
  rw [same]
  rfl

theorem lost (refuses : session.RefusesFinalization name buffer fault)
    (loses : (session.load buffer).LosesIndex) :
    ((session.step (.command name .finalize)).state.load buffer).Lost := by
  rw [refuses.load_after]
  exact refuses.sound.lost_of_refused refuses.unfinalized refuses.answer loses

/-- Removing a row, even one that is not there, tells whether the index was lost. -/
theorem not_indistinguishable (refuses : session.RefusesFinalization name buffer fault)
    (loses : (session.load buffer).LosesIndex) :
    ¬ (session.step (.command name .finalize)).state.Indistinguishable session := by
  intro same
  have gathering : (session.load buffer).Gathering :=
    ⟨refuses.sound.fillable refuses.unfinalized, loses.1, loses.2.2⟩
  have stillHeld : (session.step (.command name .finalize)).state.buffers.get? name =
      some buffer := by
    rw [refuses.buffers_after]
    exact refuses.held
  have accepted := gathering.remove []
  have answers := (same [.command name (.remove [])]).1
  simp only [Session.stepAll, answer_command refuses.held, answer_command stillHeld,
    ResultState.perform, (refuses.lost loses).remove, List.cons.injEq, and_true] at answers
  generalize (session.load buffer).remove [] = outcome at accepted answers
  obtain ⟨answer, after, events⟩ := outcome
  cases accepted
  cases answers

end RefusesFinalization

/-- Whether finalizing was refused can be told exactly of a distinct result that is not random
access and had its index until then. It has no index of its own any more, and whatever is done with
it, it cannot be finalized. Every other buffer can be filled, asked and finalized as if finalizing
had not been tried. -/
theorem refused_finalization_unnoticed_iff {earlier : List Action} {name : String}
    {buffer : Buffer} {fault : Fault}
    (held : (initial.stepAll earlier).2.buffers.get? name = some buffer)
    (unfinalized : buffer.finalized = false)
    (refused : ((initial.stepAll earlier).2.step (.command name .finalize)).answer =
      .error fault) :
    let before := (initial.stepAll earlier).2
    let after := (before.step (.command name .finalize)).state
    after.buffers = before.buffers ∧
      (after.Indistinguishable before ↔ ¬ (before.load buffer).LosesIndex) ∧
      ((before.load buffer).LosesIndex →
        (after.load buffer).hasIndex = buffer.lookup.isSome ∧
          ∀ settings commands,
            (((after.load buffer).performAll settings commands).2.perform settings
              .finalize).answer = .error .indexMissing) := by
  intro before after
  have orderly : before.holdings.Orderly := orderly_stepAll orderly_initial earlier
  have refuses : before.RefusesFinalization name buffer fault :=
    ⟨orderly, held, unfinalized, refused⟩
  refine ⟨refuses.buffers_after, ⟨fun same loses => refuses.not_indistinguishable loses same,
    fun keeps => ?_⟩, fun loses => ?_⟩
  · exact (refuses.sameButRows keeps).indistinguishable
      (orderly_stepAll orderly [.command name .finalize]) orderly
  · have lost := refuses.lost loses
    exact ⟨lost.hasIndex_eq, lost.performAll_finalize⟩

theorem refused_finalization_unnoticed_sample :
    let earlier : List Action :=
      [.openBuffer "result" (some ⟨[]⟩) 1 none none, .command "result" .setDistinct,
        .command "result" .setRandomAccess, .command "result" (.add [.integer 1]),
        .command "result" (.add [.integer 2]),
        .command "result" (.setOrder (some ⟨[⟨0, .ascending, .first⟩]⟩)),
        .setSetting .parallelSortMinRows (.text "many")]
    let before := (initial.stepAll earlier).2
    let tried := before.step (.command "result" .finalize)
    tried.answer = .error .settingKind ∧ tried.state.storeOf 0 ≠ before.storeOf 0 ∧
      tried.state.Indistinguishable before := by
  intro earlier before tried
  have refused : tried.answer = .error .settingKind := by decide +kernel
  obtain ⟨buffer, held, unfinalized, randomAccess⟩ : ∃ buffer,
      before.buffers.get? "result" = some buffer ∧ buffer.finalized = false ∧
        buffer.randomAccess = true :=
    ⟨_, rfl, rfl, rfl⟩
  refine ⟨refused, by decide +kernel, ?_⟩
  refine (refused_finalization_unnoticed_iff held unfinalized refused).2.1.mpr ?_
  rintro ⟨_, sequential, _⟩
  exact Bool.false_ne_true (sequential.symm.trans randomAccess)

/-- A distinct result whose rows cannot be sorted loses its index when it is to be finalized, and
then it cannot be finalized without order either. -/
theorem index_lost_in_refused_finalization :
    let earlier : List Action :=
      [.openBuffer "result" (some ⟨[]⟩) 1 none none, .command "result" .setDistinct,
        .command "result" (.add [.integer 1]), .command "result" (.add [.varchar [120]]),
        .command "result" (.setLimit 1),
        .command "result" (.setOrder (some ⟨[⟨0, .ascending, .first⟩]⟩))]
    let retry : List Action := [.command "result" (.setOrder none), .command "result" .finalize]
    let before := (initial.stepAll earlier).2
    let tried := before.step (.command "result" .finalize)
    tried.answer = .error (.typeMismatch .integer .varchar .notComparable) ∧
      (before.state? "result").map ResultState.hasIndex = some true ∧
      (tried.state.state? "result").map ResultState.hasIndex = some false ∧
      (before.stepAll retry).1 = [.ok .done, .ok .done] ∧
      (tried.state.stepAll retry).1 = [.ok .done, .error .indexMissing] := by
  decide +kernel

end QueryResult.Session
