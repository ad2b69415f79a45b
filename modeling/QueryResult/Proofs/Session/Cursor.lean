import QueryResult.Proofs.Session.Membership
import QueryResult.Proofs.Session.Registrations
import QueryResult.Proofs.Session.Transitions

/-!
# Cursors in sessions

From the making of a buffer on, its cursor shows the rows of the result one after
another, each time it is put before the first one again, until the buffer is
closed. Only commands on the buffer, and reading its rows into another buffer,
move the cursor.
-/

set_option autoImplicit false

namespace QueryResult.Session

variable {session : Session} {name : String} {buffer : Buffer} {times : Nat} {closed : Prop}

/-- How often the cursor of the buffer of that name was to be moved since it was put before the
first row, after another action. -/
def movesAfter (session : Session) (name : String) (times : Nat) : Action → Nat
  | .command own command => if own = name then command.movesAfter times else times
  | action => times + session.moves name action

/-- The same after a run of actions. -/
def movesSince (name : String) : List Action → Nat → Session → Nat
  | [], times, _ => times
  | action :: rest, times, session =>
      movesSince name rest (session.movesAfter name times action) (session.step action).state

/-- The buffer of that name is there, and its cursor stands where that many moves lead. -/
structure Placed (session : Session) (name : String) (times : Nat) (closed : Prop)
    (buffer : Buffer) : Prop where
  held : session.buffers.get? name = some buffer
  positioned : buffer.Positioned
  moved : buffer.Moved times
  isClosed : buffer.closed = true ↔ closed

theorem held_step (orderly : session.holdings.Orderly)
    (held : session.buffers.get? name = some buffer) {action : Action}
    (stays : action.replaces name = false) :
    ∃ after : Buffer, (session.step action).state.buffers.get? name = some after := by
  cases isOn : action.isOn name with
  | true =>
      obtain ⟨command, rfl⟩ := Action.eq_command_of_isOn isOn
      exact ⟨_, buffers_onBuffer_self orderly held command⟩
  | false =>
      rcases buffers_step_other orderly isOn stays with same | ⟨_, own, moves, _, _, moved⟩
      · exact ⟨buffer, same.trans held⟩
      · exact ⟨_, moved⟩

theorem movesAfter_other {action : Action} (notOn : action.isOn name = false) :
    session.movesAfter name times action = times + session.moves name action := by
  cases action with
  | command own command =>
      have different : own ≠ name := of_decide_eq_false notOn
      have unmoved : session.moves name (.command own command) = 0 := by
        cases command with
        | next => exact if_neg different
        | _ => rfl
      rw [movesAfter, if_neg different, unmoved, Nat.add_zero]
  | _ => rfl

theorem Transition.placed {action : Action} {state : ResultState}
    (transition : session.Transition name action state) (orderly : session.holdings.Orderly)
    (placed : session.Placed name times closed buffer) (stays : action.replaces name = false) :
    state.buffer.Positioned ∧ state.buffer.Moved (session.movesAfter name times action) ∧
      (state.buffer.closed = true ↔ closed ∨ action = .command name .close) := by
  have sound : (session.load buffer).Sound := orderly.sound name buffer _ placed.held
  have notClosing : ∀ {action : Action}, action.isOn name = false → action ≠ .command name .close := by
    rintro _ notOn rfl
    simp [Action.isOn] at notOn
  cases transition with
  | moved action own context held notOn =>
      cases placed.held.symm.trans held
      obtain ⟨positioned, moved⟩ :=
        sound.moves placed.positioned placed.moved session.settings (session.moves name action)
      have onlyNext : ∀ command ∈ List.replicate (session.moves name action) Command.next,
          command = .next := fun _ => List.eq_of_mem_replicate
      have sameClosed :=
        (ResultState.performAll_next_registers session.settings onlyNext (session.load buffer)).closed
      rw [movesAfter_other notOn]
      refine ⟨positioned, moved, ?_⟩
      simp only [sameClosed, notClosing notOn, or_false]
      exact placed.isClosed
  | shared action own context held notOn _ unmoved =>
      cases placed.held.symm.trans held
      rw [movesAfter_other notOn, unmoved]
      refine ⟨placed.positioned, placed.moved, ?_⟩
      simp only [notClosing notOn, or_false]
      exact placed.isClosed
  | performed command own context held =>
      cases placed.held.symm.trans held
      refine ⟨sound.perform_positioned placed.positioned session.settings command, ?_, ?_⟩
      · rw [movesAfter, if_pos rfl]
        exact sound.perform_moved placed.positioned placed.moved session.settings command
      · by_cases closing : command = .close
        · subst closing
          simp only [ResultState.perform, ResultState.state_mapAnswer,
            (session.load buffer).close_closes.closed, or_true]
        · have registers := sound.perform_registers session.settings closing
          simp only [registers.closed, Action.command.injEq, true_and, closing, or_false]
          exact placed.isClosed
  | opened => simp [Action.replaces] at stays
  | received => simp [Action.replaces] at stays
  | copied => simp [Action.replaces] at stays

theorem Placed.step (orderly : session.holdings.Orderly)
    (placed : session.Placed name times closed buffer) {action : Action}
    (stays : action.replaces name = false) :
    ∃ after, (session.step action).state.Placed name (session.movesAfter name times action)
      (closed ∨ action = .command name .close) after := by
  obtain ⟨after, held⟩ := held_step orderly placed.held stays
  obtain ⟨positioned, moved, isClosed⟩ := (transition orderly held none).placed orderly placed stays
  exact ⟨after, held, positioned, moved, isClosed⟩

theorem Placed.stepAll (orderly : session.holdings.Orderly)
    (placed : session.Placed name times closed buffer) {actions : List Action}
    (stays : ∀ action ∈ actions, action.replaces name = false) :
    ∃ after, (session.stepAll actions).2.Placed name (movesSince name actions times session)
      (closed ∨ .command name .close ∈ actions) after := by
  induction actions generalizing session times closed buffer with
  | nil =>
      refine ⟨buffer, placed.held, placed.positioned, placed.moved, ?_⟩
      simpa using placed.isClosed
  | cons action rest ih =>
      obtain ⟨between, first⟩ := placed.step orderly (stays action List.mem_cons_self)
      obtain ⟨after, held, positioned, moved, isClosed⟩ :=
        ih (orderly_stepAll orderly [action]) first
          fun other listed => stays other (List.mem_cons_of_mem _ listed)
      refine ⟨after, held, positioned, moved, ?_⟩
      rw [isClosed, List.mem_cons, or_assoc, eq_comm (a := action)]

theorem Transition.unread {action : Action} {state : ResultState}
    (transition : session.Transition name action state) (remakes : session.Remakes name action) :
    state.buffer.position = -1 ∧ state.buffer.current = none := by
  cases transition with
  | moved _ _ _ _ _ kept => exact absurd remakes kept
  | shared _ _ _ _ _ kept => exact absurd remakes kept
  | performed =>
      obtain ⟨_, _, makes, _⟩ := remakes
      exact makes.elim
  | opened => exact ⟨rfl, rfl⟩
  | received source limit owner sourceBuffer adds made reports context held onlyAdd finalized =>
      have sound := (ResultState.sound_opened owner sourceBuffer.schema sourceBuffer.visible
        (session.inheritedThreshold owner) session.nextStore
        (owner.bind session.contexts.get?)).performAll session.settings adds
      obtain ⟨_, position, current⟩ := sound.finalize_unread finalized
      exact ⟨position, current⟩
  | copied _ _ _ _ _ _ _ copies => exact (ResultState.shallowCopy_unread copies).2

theorem placed_made (orderly : session.holdings.Orderly) {action : Action} {owner : Option String}
    {threshold : UInt64} (makes : action.Makes name owner)
    (accepted : (session.step action).answer = .ok (.threshold threshold)) :
    ∃ buffer, (session.step action).state.Placed name 0 False buffer := by
  obtain ⟨⟨buffer, new, held⟩, _⟩ := new_of_makes orderly makes accepted
  obtain ⟨position, current⟩ :=
    (transition orderly held none).unread ⟨owner, threshold, makes, accepted⟩
  refine ⟨buffer, held, Buffer.positioned_of_unread position current,
    Buffer.moved_of_unread position, ?_⟩
  rw [new.isOpen]
  exact ⟨nofun, nofun⟩

theorem unchanged_of_same_state (orderly : session.holdings.Orderly)
    (held : session.buffers.get? name = some buffer) {command : Command}
    (same : ((session.load buffer).perform session.settings command).state = session.load buffer) :
    (session.step (.command name command)).state.holdings = session.holdings ∧
      (session.step (.command name command)).state.contexts = session.contexts := by
  have sound : (session.load buffer).Sound := orderly.sound name buffer _ held
  constructor
  · rw [step, onBuffer_holdings session.settings held sound, same]
    exact session.holdings.put_load held _
  · rw [step, contexts_onBuffer held, same]
    exact congrArg Session.contexts (session.saveContext_self buffer.context)

/-- Moving the cursor of a result that is not finalized is refused. -/
theorem Placed.next_unfinalized (placed : session.Placed name times closed buffer)
    (orderly : session.holdings.Orderly) (unfinalized : buffer.finalized = false) :
    let moved := session.step (.command name .next)
    moved.answer = .error .readUnfinalized ∧ moved.state.holdings = session.holdings ∧
      moved.state.contexts = session.contexts := by
  intro moved
  have refused : (session.load buffer).perform session.settings .next = .refuse .readUnfinalized _ :=
    congrArg (Outcome.mapAnswer _) (ResultState.next_unfinalized unfinalized)
  have answer := answer_command placed.held .next
  rw [refused] at answer
  exact ⟨answer, unchanged_of_same_state orderly placed.held (congrArg Outcome.state refused)⟩

/-- Moving the cursor of an open result shows the row that is next, if there is one. -/
theorem Placed.next_open (placed : session.Placed name times closed buffer)
    (orderly : session.holdings.Orderly) (finalized : buffer.finalized = true)
    (isOpen : buffer.closed = false) :
    let moved := session.step (.command name .next)
    let rows := session.rowsOf buffer.store
    moved.answer = .ok (.step (decide (times < rows.length)) rows[times]?) ∧
      ∃ after, moved.state.buffers.get? name = some after ∧
        after.position = (min times rows.length : Nat) := by
  intro moved rows
  have sound : (session.load buffer).Sound := orderly.sound name buffer _ placed.held
  have positioned : (session.load buffer).buffer.Positioned := placed.positioned
  obtain ⟨shown, position⟩ :=
    sound.next_answer positioned placed.moved finalized isOpen session.settings
  have counted : (session.load buffer).buffer.rowCount = rows.length := sound.counted finalized
  refine ⟨(answer_command placed.held .next).trans shown, _,
    buffers_onBuffer_self orderly placed.held .next, ?_⟩
  rw [position, counted]
  omega

/-- Moving the cursor of a closed result shows nothing and leads nowhere. -/
theorem Placed.next_closed (placed : session.Placed name times closed buffer)
    (orderly : session.holdings.Orderly) (finalized : buffer.finalized = true)
    (isClosed : buffer.closed = true) :
    let moved := session.step (.command name .next)
    moved.answer = .ok (.step false none) ∧ moved.state.holdings = session.holdings ∧
      moved.state.contexts = session.contexts := by
  intro moved
  have positioned : (session.load buffer).buffer.Positioned := placed.positioned
  have stays : (session.load buffer).perform session.settings .next =
      .accept (.step false (session.load buffer).currentRow) (session.load buffer) [] :=
    congrArg (Outcome.mapAnswer _) (ResultState.next_of_closed finalized isClosed)
  have nothing : (session.load buffer).currentRow = none := by
    refine ResultState.currentRow_eq_none positioned fun place standsOn => ?_
    exact Bool.false_ne_true (standsOn.isOpen.symm.trans isClosed)
  have answer := answer_command placed.held .next
  rw [stays, nothing] at answer
  exact ⟨answer, unchanged_of_same_state orderly placed.held (congrArg Outcome.state stays)⟩

/-- From the making of a buffer on, whatever is done: the cursor stands before the rows, on one of
them or behind them, and shows a row if it stands on one of an open result. Moving it is refused
before the result is finalized. The k-th move since the cursor was put before the first row shows
the k-th row as long as there is one; once the buffer is closed, moves show nothing and lead
nowhere. -/
theorem cursor_shows_rows_in_turn (earlier during : List Action) (making : Action) (name : String)
    (owner : Option String) (run : BufferRun earlier making during name owner) :
    let made := ((initial.stepAll earlier).2.step making).state
    let session := (made.stepAll during).2
    let times := movesSince name during 0 made
    let moved := session.step (.command name .next)
    ∃ buffer, session.buffers.get? name = some buffer ∧
      let rows := session.rowsOf buffer.store
      let shown := (session.load buffer).currentRow
      (-1 ≤ buffer.position ∧ buffer.position ≤ buffer.rowCount) ∧
      (shown.isSome = true ↔ buffer.finalized = true ∧ buffer.closed = false ∧
        0 ≤ buffer.position ∧ buffer.position < buffer.rowCount) ∧
      (∀ row, shown = some row → rows[buffer.position.toNat]? = some row) ∧
      (buffer.closed = true ↔ .command name .close ∈ during) ∧
      (buffer.finalized = false →
        moved.answer = .error .readUnfinalized ∧ moved.state.holdings = session.holdings ∧
          moved.state.contexts = session.contexts) ∧
      (buffer.finalized = true → buffer.rowCount = rows.length) ∧
      (buffer.finalized = true → buffer.closed = false →
        moved.answer = .ok (.step (decide (times < rows.length)) rows[times]?) ∧
          ∃ after, moved.state.buffers.get? name = some after ∧
            after.position = (min times rows.length : Nat)) ∧
      (buffer.finalized = true → buffer.closed = true →
        moved.answer = .ok (.step false none) ∧ moved.state.holdings = session.holdings ∧
          moved.state.contexts = session.contexts) := by
  intro made session times moved
  have earlierOrderly : (initial.stepAll earlier).2.holdings.Orderly :=
    orderly_stepAll orderly_initial earlier
  have madeOrderly : made.holdings.Orderly := orderly_stepAll earlierOrderly [making]
  have orderly : session.holdings.Orderly := orderly_stepAll madeOrderly during
  obtain ⟨threshold, accepted⟩ := run.accepted
  obtain ⟨new, placedNew⟩ := placed_made earlierOrderly run.makes accepted
  obtain ⟨buffer, placed⟩ := placedNew.stepAll madeOrderly run.stays
  have sound : (session.load buffer).Sound := orderly.sound name buffer _ placed.held
  have positioned : (session.load buffer).buffer.Positioned := placed.positioned
  exact ⟨buffer, placed.held, ⟨positioned.low, positioned.high⟩,
    sound.currentRow_isSome_iff positioned, fun row => ResultState.rows_of_currentRow positioned,
    by simpa using placed.isClosed, placed.next_unfinalized orderly,
    fun finalized => sound.counted finalized, placed.next_open orderly, placed.next_closed orderly⟩

theorem cursor_shows_rows_in_turn_sample :
    let earlier : List Action := [.openContext "main" none]
    let making := Action.openBuffer "result" (some ⟨[]⟩) 1 (some "main") none
    let during : List Action :=
      [.command "result" (.add [.integer 1]), .command "result" (.add [.integer 2]),
        .command "result" .finalize, .command "result" .next, .command "result" .next,
        .command "result" .rewind, .command "result" .next]
    let made := ((initial.stepAll earlier).2.step making).state
    let session := (made.stepAll during).2
    movesSince "result" during 0 made = 1 ∧
      (session.step (.command "result" .next)).answer = .ok (.step true (some [.integer 2])) := by
  intro earlier making during
  dsimp only
  have run : BufferRun earlier making during "result" (some "main") :=
    ⟨⟨rfl, rfl⟩, ⟨_, rfl⟩, by decide +kernel⟩
  obtain ⟨buffer, held, _, _, _, _, _, _, shows, _⟩ :=
    cursor_shows_rows_in_turn earlier during making "result" (some "main") run
  have state :
      ((((initial.stepAll earlier).2.step making).state.stepAll during).2.buffers.get? "result").map
        (fun buffer => (buffer.finalized, buffer.closed, buffer.store)) = some (true, false, 0) := by
    decide +kernel
  have rows : (((initial.stepAll earlier).2.step making).state.stepAll during).2.rowsOf 0 =
      [[.integer 1], [.integer 2]] := by decide +kernel
  have times : movesSince "result" during 0 ((initial.stepAll earlier).2.step making).state = 1 := by
    decide +kernel
  rw [held, Option.map_some, Option.some.injEq, Prod.mk.injEq, Prod.mk.injEq] at state
  obtain ⟨finalized, isOpen, number⟩ := state
  have answer := (shows finalized isOpen).1
  rw [number, rows, times] at answer
  exact ⟨times, answer⟩

end QueryResult.Session
