import QueryResult.Proofs.Session.Handles

/-!
# The registrations of a buffer

The handles that commands on a buffer give out tell its registrations apart from
all others. Closing or destroying an open buffer ends its own and leaves the
others. The objects that are registered for a buffer after it was closed are
never released by it.
-/

set_option autoImplicit false

namespace QueryResult.Session

variable {session : Session} {name context : String} {buffer : Buffer} {action : Action}

/-- The buffer of that name has been closed. -/
def isClosed (session : Session) (name : String) : Bool :=
  (session.buffers.get? name).any Buffer.closed

/-- The handles that commands on the buffer of that name give out in a run. -/
def ownHandles (name context : String) (actions : List Action) (session : Session) : List Nat :=
  handedOut (fun _ action => action.isOn name) context actions session

/-- Those of the handles that are given out when the buffer has been closed already. -/
def lateHandles (name context : String) (actions : List Action) (session : Session) : List Nat :=
  handedOut (fun session action => action.isOn name && session.isClosed name) context actions
    session

/-- The buffer of that name has given out `own` so far in that context, of these `late` after it
was closed. As long as it is open it remembers what it has given out; of that, nothing else than
`late` is live once it is closed. -/
structure Tracks (session : Session) (name context : String) (own late : List Nat)
    (buffer : Buffer) : Prop where
  held : session.buffers.get? name = some buffer
  given : ∀ handle ∈ own, handle < session.nextHandle context
  whileOpen : buffer.closed = false →
    late = [] ∧ own = if buffer.context = some context then buffer.registered else []
  onceClosed : buffer.closed = true →
    ∀ handle ∈ own, handle ∈ session.liveHandles context → handle ∈ late

variable {own late : List Nat}

theorem Tracks.isClosed_eq (tracks : session.Tracks name context own late buffer) :
    session.isClosed name = buffer.closed := by
  rw [isClosed, tracks.held]
  rfl

theorem tracks_new (held : session.buffers.get? name = some buffer)
    (new : buffer.New (buffer.context)) (context : String) :
    session.Tracks name context [] [] buffer where
  held := held
  given := fun _ listed => absurd listed List.not_mem_nil
  whileOpen := fun _ => ⟨rfl, by rw [new.unregistered, ite_self]⟩
  onceClosed := fun _ _ listed => absurd listed List.not_mem_nil

theorem Tracks.closing_eq (tracks : session.Tracks name context own late buffer) :
    session.closing name context =
      if session.isClosed name then id else Context.without own := by
  rw [Session.closing_eq tracks.held, tracks.isClosed_eq, Buffer.closing]
  cases closed : buffer.closed with
  | true => simp
  | false =>
      obtain ⟨_, rfl⟩ := tracks.whileOpen closed
      by_cases isOwner : buffer.context = some context
      · simp [isOwner]
      · simp only [isOwner, and_false, if_false, Bool.false_eq_true]
        exact (funext Context.without_nil).symm

theorem liveHandles_closed (tracks : session.Tracks name context own late buffer) {after : Session}
    (contexts : after.contexts.get? context =
      (session.contexts.get? context).map (session.closing name context)) :
    after.liveHandles context =
      (session.liveHandles context).filter fun handle =>
        decide (handle ∉ own ∨ handle ∈ late) := by
  rw [tracks.closing_eq, tracks.isClosed_eq] at contexts
  cases closed : buffer.closed with
  | true =>
      rw [closed, if_pos rfl, Option.map_id, id] at contexts
      have nothing := List.filter_eq_self.mpr fun handle live =>
        decide_eq_true (Decidable.not_or_of_imp fun given =>
          tracks.onceClosed closed handle given live)
      rw [nothing, liveHandles, contexts]
      rfl
  | false =>
      rw [closed, if_neg Bool.false_ne_true] at contexts
      obtain ⟨rfl, _⟩ := tracks.whileOpen closed
      rw [liveHandles_without own contexts]
      simp

theorem Tracks.command (wellKept : session.WellKept)
    (tracks : session.Tracks name context own late buffer) (command : Command) :
    ∃ after : Buffer, after.context = buffer.context ∧
      (session.step (.command name command)).state.Tracks name context
        (own ++ session.handsOut (.command name command) context)
        (late ++
          if session.isClosed name then session.handsOut (.command name command) context else [])
        after := by
  have sound : (session.load buffer).Sound := wellKept.orderly.sound name buffer _ tracks.held
  have held := buffers_onBuffer_self wellKept.orderly tracks.held command
  have given := wellKept.given_after tracks.given (.command name command)
  have liveBefore : ∀ handle ∈ own,
      handle ∈ (session.step (.command name command)).state.liveHandles context →
      handle ∈ session.liveHandles context :=
    fun _ listed live => wellKept.live_before tracks.given listed live
  rw [tracks.isClosed_eq]
  -- Closing gives out no handle and ends those that were remembered. Any other command adds the
  -- handles that it gives out, which are late if the buffer is closed.
  by_cases closes : command = .close
  · subst closes
    have closed := (session.load buffer).close_closes
    have live := liveHandles_closed tracks (session.contexts_close name context)
    rw [handsOut_close wellKept tracks.held] at given ⊢
    rw [ite_self, List.append_nil, List.append_nil]
    refine ⟨_, ?_, held, ?_, ?_, ?_⟩
    · simp only [ResultState.perform, ResultState.state_mapAnswer, closed.owner]
      rfl
    · rwa [List.append_nil] at given
    · intro isOpen
      simp [ResultState.perform, ResultState.state_mapAnswer, closed.closed] at isOpen
    · intro _ handle listed isLive
      rw [live, List.mem_filter] at isLive
      simpa [listed] using isLive.2
  · have registers := sound.perform_registers session.settings closes
    have answer := answer_command tracks.held command
    refine ⟨_, registers.owner, held, given, ?_, ?_⟩
    · intro isOpen
      have isOpen : buffer.closed = false := registers.closed.symm.trans isOpen
      obtain ⟨rfl, rfl⟩ := tracks.whileOpen isOpen
      have owner : ((session.load buffer).perform session.settings command).state.buffer.context =
          buffer.context := registers.owner
      rw [isOpen, if_neg Bool.false_ne_true, List.append_nil, owner, registers.registered,
        wellKept.handsOut_command tracks.held, answer]
      refine ⟨rfl, ?_⟩
      split
      · rfl
      · rfl
    · intro isClosed handle listed isLive
      have isClosed : buffer.closed = true := registers.closed.symm.trans isClosed
      rw [if_pos isClosed, List.mem_append]
      refine (List.mem_append.mp listed).imp_left fun old => ?_
      exact tracks.onceClosed isClosed handle old (liveBefore handle old isLive)

theorem Tracks.other (wellKept : session.WellKept)
    (tracks : session.Tracks name context own late buffer) (notOn : action.isOn name = false)
    (stays : action.replaces name = false) :
    ∃ after : Buffer, after.context = buffer.context ∧
      (session.step action).state.Tracks name context own late after := by
  obtain ⟨after, held, nothing⟩ : ∃ after : ResultState,
      (session.step action).state.buffers.get? name = some after.buffer ∧
      ResultState.Registers [] (session.load buffer) after := by
    -- At most its rows are read into another buffer, which only moves its cursor.
    rcases buffers_step_other wellKept.orderly notOn stays with same | ⟨_, own, moves, held, only, moved⟩
    · exact ⟨session.load buffer, same.trans tracks.held,
        ResultState.registers_nothing rfl rfl rfl rfl⟩
    · cases tracks.held.symm.trans held
      exact ⟨_, moved, ResultState.performAll_next_registers session.settings only _⟩
  have given := wellKept.given_after tracks.given action
  refine ⟨after.buffer, nothing.owner, held, ?_, ?_, ?_⟩
  · exact fun handle listed => given handle (List.mem_append_left _ listed)
  · intro isOpen
    rw [nothing.owner, nothing.registered_eq]
    exact tracks.whileOpen (nothing.closed.symm.trans isOpen)
  · intro isClosed handle listed live
    exact tracks.onceClosed (nothing.closed.symm.trans isClosed) handle listed
      (wellKept.live_before tracks.given listed live)

theorem Tracks.after (wellKept : session.WellKept)
    (tracks : session.Tracks name context own late buffer) (stays : action.replaces name = false) :
    ∃ after : Buffer, after.context = buffer.context ∧
      (session.step action).state.Tracks name context
        (own ++ if action.isOn name then session.handsOut action context else [])
        (late ++
          if action.isOn name && session.isClosed name then session.handsOut action context else [])
        after := by
  cases isOn : action.isOn name with
  | true =>
      obtain ⟨command, rfl⟩ := Action.eq_command_of_isOn isOn
      exact tracks.command wellKept command
  | false =>
      have others := tracks.other wellKept isOn stays
      simpa using others

theorem Tracks.afterAll (wellKept : session.WellKept)
    (tracks : session.Tracks name context own late buffer) {actions : List Action}
    (stays : ∀ action ∈ actions, action.replaces name = false) :
    ∃ after : Buffer, after.context = buffer.context ∧
      (session.stepAll actions).2.Tracks name context
        (own ++ ownHandles name context actions session)
        (late ++ lateHandles name context actions session) after := by
  induction actions generalizing session own late buffer with
  | nil =>
      refine ⟨buffer, rfl, ?_⟩
      rw [ownHandles, lateHandles, handedOut, handedOut, List.append_nil, List.append_nil]
      exact tracks
  | cons action rest ih =>
      obtain ⟨between, sameOwner, first⟩ := tracks.after wellKept (stays action List.mem_cons_self)
      obtain ⟨after, owner, reached⟩ := ih (wellKept.after action) first
        fun other listed => stays other (List.mem_cons_of_mem _ listed)
      refine ⟨after, owner.trans sameOwner, ?_⟩
      rwa [List.append_assoc, List.append_assoc] at reached

/-- Beside `base`, the context has exactly those objects that the buffer has registered and not
released. -/
structure Alone (session : Session) (name context : String) (own late base : List Nat) : Prop where
  live : session.liveHandles context = base ++ if session.isClosed name then late else own
  apart : ∀ handle ∈ base, handle ∉ own

variable {base : List Nat}

/-- Closing the buffer leaves what it had registered late. -/
theorem Alone.closed (tracks : session.Tracks name context own late buffer)
    (alone : session.Alone name context own late base) {after : Session}
    (contexts : after.contexts.get? context =
      (session.contexts.get? context).map (session.closing name context)) :
    after.liveHandles context = base ++ late := by
  have live := alone.live
  have kept : base.filter (fun handle => decide (handle ∉ own ∨ handle ∈ late)) = base :=
    List.filter_eq_self.mpr fun handle listed => decide_eq_true (.inl (alone.apart handle listed))
  rw [liveHandles_closed tracks contexts]
  rw [tracks.isClosed_eq] at live
  cases closed : buffer.closed with
  | true =>
      have stays : late.filter (fun handle => decide (handle ∉ own ∨ handle ∈ late)) = late :=
        List.filter_eq_self.mpr fun handle listed => decide_eq_true (.inr listed)
      rw [live, closed, if_pos rfl, List.filter_append, kept, stays]
  | false =>
      obtain ⟨rfl, _⟩ := tracks.whileOpen closed
      have ends : own.filter (fun handle => decide (handle ∉ own ∨ handle ∈ [])) = [] :=
        List.filter_eq_nil_iff.mpr fun handle listed => by simp [listed]
      rw [live, closed, if_neg Bool.false_ne_true, List.filter_append, kept, ends]

theorem Alone.command (wellKept : session.WellKept)
    (tracks : session.Tracks name context own late buffer)
    (alone : session.Alone name context own late base) (command : Command) :
    (session.step (.command name command)).state.Alone name context
      (own ++ session.handsOut (.command name command) context)
      (late ++
        if session.isClosed name then session.handsOut (.command name command) context else [])
      base := by
  have sound : (session.load buffer).Sound := wellKept.orderly.sound name buffer _ tracks.held
  have isClosed : (session.step (.command name command)).state.isClosed name =
      ((session.load buffer).perform session.settings command).state.buffer.closed := by
    rw [Session.isClosed, buffers_onBuffer_self wellKept.orderly tracks.held]
    rfl
  have live := alone.live
  constructor
  · rw [isClosed]
    by_cases closes : command = .close
    · subst closes
      have closed := (session.load buffer).close_closes
      rw [alone.closed tracks (session.contexts_close name context),
        handsOut_close wellKept tracks.held, ite_self, List.append_nil]
      simp [ResultState.perform, ResultState.state_mapAnswer, closed.closed]
    · have registers := sound.perform_registers session.settings closes
      have sameClosed : ((session.load buffer).perform session.settings command).state.buffer.closed
          = buffer.closed := registers.closed
      rw [wellKept.liveHandles_command tracks.held closes, live, sameClosed, tracks.isClosed_eq]
      cases buffer.closed <;> simp
  · intro handle listed given
    rcases List.mem_append.mp given with old | new
    · exact alone.apart handle listed old
    · -- What is live already is below the handles that are given out now.
      rw [wellKept.handsOut_eq, List.mem_range'_1] at new
      have before := wellKept.lt (live ▸ List.mem_append_left _ listed)
      omega

theorem Alone.commands (wellKept : session.WellKept)
    (tracks : session.Tracks name context own late buffer)
    (alone : session.Alone name context own late base) {actions : List Action}
    (only : ∀ action ∈ actions, action.isOn name = true) :
    (session.stepAll actions).2.Alone name context
      (own ++ ownHandles name context actions session)
      (late ++ lateHandles name context actions session) base := by
  induction actions generalizing session own late buffer with
  | nil =>
      rw [ownHandles, lateHandles, handedOut, handedOut, List.append_nil, List.append_nil]
      exact alone
  | cons action rest ih =>
      obtain ⟨command, rfl⟩ := Action.eq_command_of_isOn (only action List.mem_cons_self)
      obtain ⟨after, _, first⟩ := tracks.command wellKept command
      have reached := ih (wellKept.after _) first (alone.command wellKept tracks command)
        fun other listed => only other (List.mem_cons_of_mem _ listed)
      rw [List.append_assoc, List.append_assoc] at reached
      simpa [ownHandles, lateHandles, handedOut, Action.isOn, stepAll] using reached

/-- After `earlier`, the buffer of that name is made in that context, and it is neither replaced nor
destroyed in what follows. -/
structure BufferRun (earlier : List Action) (making : Action) (during : List Action)
    (name : String) (owner : Option String) : Prop where
  makes : making.Makes name owner
  accepted : ∃ threshold,
    ((initial.stepAll earlier).2.step making).answer = .ok (.threshold threshold)
  stays : ∀ action ∈ during, action.replaces name = false

theorem BufferRun.tracks {earlier during : List Action} {making : Action} {owner : Option String}
    (run : BufferRun earlier making during name owner) (context : String) :
    let made := ((initial.stepAll earlier).2.step making).state
    made.WellKept ∧
      (∃ buffer, made.Tracks name context [] [] buffer) ∧
      ∃ after, (made.stepAll during).2.Tracks name context (ownHandles name context during made)
        (lateHandles name context during made) after := by
  have wellKept := wellKept_initial.afterAll earlier
  obtain ⟨threshold, accepted⟩ := run.accepted
  obtain ⟨⟨buffer, new, held⟩, _⟩ := new_of_makes wellKept.orderly run.makes accepted
  have made := tracks_new held ⟨rfl, new.unregistered, new.isOpen⟩ context
  obtain ⟨after, _, tracks⟩ := made.afterAll (wellKept.after making) run.stays
  exact ⟨wellKept.after making, ⟨buffer, made⟩, after, tracks⟩

/-- Destroying a buffer ends all the registrations it made while it was open, and only these: the
objects registered for it after it was closed stay in its context. -/
theorem destroyed_buffer_leaves_late_objects (earlier during : List Action) (making : Action)
    (name : String) (owner : Option String) (run : BufferRun earlier making during name owner) :
    let session := (initial.stepAll earlier).2
    let made := (session.step making).state
    let reached := (made.stepAll during).2
    let destroyed := reached.step (.destroy name)
    destroyed.answer = .ok .done ∧
      ∀ context,
        let own := ownHandles name context during made
        let late := lateHandles name context during made
        destroyed.state.liveHandles context =
            (reached.liveHandles context).filter
              (fun handle => decide (handle ∉ own ∨ handle ∈ late)) ∧
          (session.buffers.get? name = none → (∀ action ∈ during, action.isOn name = true) →
            destroyed.state.liveHandles context = session.liveHandles context ++ late) := by
  intro session made reached destroyed
  constructor
  · obtain ⟨_, _, after, tracks⟩ := run.tracks ""
    exact answer_destroy tracks.held
  · intro context own late
    obtain ⟨wellKept, ⟨buffer, new⟩, after, tracks⟩ := run.tracks context
    have ended := reached.contexts_destroy name context
    refine ⟨liveHandles_closed tracks ended, fun unheld only => ?_⟩
    obtain ⟨threshold, accepted⟩ := run.accepted
    have sessionKept : session.WellKept := wellKept_initial.afterAll earlier
    have contexts := (new_of_makes sessionKept.orderly run.makes accepted).2 context
    have untouched : made.liveHandles context = session.liveHandles context := by
      rw [closing_eq_id unheld, Option.map_id, id] at contexts
      rw [liveHandles, contexts]
      rfl
    have alone : made.Alone name context [] [] (session.liveHandles context) := by
      refine ⟨?_, fun _ _ => List.not_mem_nil⟩
      rw [untouched, ite_self, List.append_nil]
    exact (alone.commands wellKept new only).closed tracks ended

theorem destroyed_buffer_leaves_late_objects_sample :
    let earlier : List Action := [.openContext "main" none]
    let making := Action.openBuffer "result" (some ⟨[]⟩) 1 (some "main") none
    let linked := Value.largeObject .blob [120] (.linked "text")
    let during : List Action :=
      [.command "result" (.add [linked]), .command "result" .close,
        .command "result" (.add [linked, linked])]
    let made := ((initial.stepAll earlier).2.step making).state
    let destroyed := ((made.stepAll during).2.step (.destroy "result")).state
    destroyed.liveHandles "main" = [] ++ lateHandles "result" "main" during made ∧
      lateHandles "result" "main" during made = [2, 3] := by
  intro earlier making linked during made destroyed
  have run : BufferRun earlier making during "result" (some "main") :=
    ⟨⟨rfl, rfl⟩, ⟨_, rfl⟩, by decide +kernel⟩
  have left := destroyed_buffer_leaves_late_objects earlier during making "result" (some "main") run
  exact ⟨(left.2 "main").2 (by decide +kernel) (by decide +kernel), by decide +kernel⟩

/-- An object that is registered for a buffer after it was closed is live when the buffer has been
destroyed. -/
theorem late_object_outlives_buffer :
    let earlier : List Action := [.openContext "main" none]
    let making := Action.openBuffer "result" (some ⟨[]⟩) 1 (some "main") none
    let during : List Action :=
      [.command "result" .close,
        .command "result" (.add [.largeObject .blob [120] (.linked "text")])]
    let made := ((initial.stepAll earlier).2.step making).state
    let destroyed := (made.stepAll during).2.step (.destroy "result")
    (made.stepAll during).1 = [.ok .done, .ok .done] ∧ destroyed.answer = .ok .done ∧
      ownHandles "result" "main" during made = [1] ∧
      destroyed.state.liveHandles "main" = [1] ∧
      ((initial.stepAll earlier).2.liveHandles "main") = [] := by
  decide +kernel

end QueryResult.Session
