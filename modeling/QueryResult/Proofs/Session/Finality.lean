import QueryResult.Proofs.Session.Cursor
import QueryResult.Proofs.Session.Sharing

/-!
# Finality

A result that has been finalized once stays as it is: no action in the session
changes its rows or their number. Finalizing it again only puts the cursor
before the first row, so the window and the order of the result are applied
once, and a scan from the start always delivers the same rows.
-/

set_option autoImplicit false

namespace QueryResult

namespace Holdings

/-- The rows of a finalized result are kept by all changes of the holdings. -/
theorem kept_final {mayAsk : Nat → Prop} {fresh number : Nat} (rows : List Row)
    (older : number < fresh) :
    Kept mayAsk fresh
      (OnStore number fun state => state.buffer.finalized = true ∧ state.rows = rows) := by
  refine kept_onStore (fun _ _ final => final) ?_ ?_ (fun _ _ _ final => final) ?_
  · rintro state settings command _ _ ⟨finalized, same⟩
    have fixed : state.RowsFixed := .inl finalized
    obtain ⟨sameRows, _, _⟩ := fixed.perform settings command
    exact ⟨ResultState.finalized_perform settings finalized command,
      (congrArg Array.toList sameRows).trans same⟩
  · intro isNew
    exact absurd isNew.symm (Nat.ne_of_lt older)
  · rintro state owner frozen copy context _ ⟨_, same⟩ copied
    obtain ⟨finalized, _, _⟩ := ResultState.shallowCopy_unread copied
    obtain ⟨_, shared, _⟩ := shallowCopy_eq copied
    rw [shared]
    exact ⟨finalized, same⟩

end Holdings

namespace Session

variable {session : Session} {name : String} {buffer : Buffer}

/-- The answers of the buffer of that name when its cursor is put before the first row by a
command and then moved until it is behind the last of so many rows. -/
def scan (session : Session) (name : String) (start : Command) (count : Nat) :
    List (Except Fault Answer) :=
  (session.stepAll ((start :: List.replicate (count + 1) .next).map (.command name))).1

/-- The buffer of that name shows the rows of a finalized result, and finalizing it again only
rewinds it. -/
structure Final (session : Session) (name : String) (buffer : Buffer) (rows : List Row) :
    Prop where
  held : session.rowsOf buffer.store = rows
  counted : buffer.rowCount = rows.length
  again : session.step (.command name .finalize) = session.step (.command name .rewind)
  answer : (session.step (.command name .rewind)).answer = .ok .done
  rewound : (session.step (.command name .rewind)).state.holdings =
    { session.holdings with
      buffers := Function.update session.holdings.buffers name (some buffer.rewound) }
  contexts : (session.step (.command name .rewind)).state.contexts = session.contexts
  scans : buffer.closed = false → ∀ start, start = .rewind ∨ start = .finalize →
    session.scan name start rows.length = .ok .done :: ResultState.scanOf rows

/-- Whatever happens, everyone who shares the store shows its present rows. -/
def StaysFinal (session : Session) (number : Nat) : Prop :=
  ∀ (later : List Action) (name : String) (buffer : Buffer),
    (session.stepAll later).2.buffers.get? name = some buffer → buffer.store = number →
    (session.stepAll later).2.Final name buffer (session.rowsOf number)

theorem scans_of_finalized (orderly : session.holdings.Orderly)
    (held : session.buffers.get? name = some buffer) (finalized : buffer.finalized = true)
    (isOpen : buffer.closed = false) :
    session.scan name .rewind (session.rowsOf buffer.store).length =
      .ok .done :: ResultState.scanOf (session.rowsOf buffer.store) := by
  have sound : (session.load buffer).Sound := orderly.sound name buffer _ held
  have rewound := sound.perform session.settings .rewind
  have scanned := rewound.scans rfl rfl finalized isOpen session.settings
  rw [scan, stepAll_commands orderly held, ResultState.performAll]
  exact congrArg (List.cons _) scanned

theorem final_of_finalized (orderly : session.holdings.Orderly)
    (held : session.buffers.get? name = some buffer) (finalized : buffer.finalized = true) :
    session.Final name buffer (session.rowsOf buffer.store) := by
  have sound : (session.load buffer).Sound := orderly.sound name buffer _ held
  have again : session.step (.command name .finalize) = session.step (.command name .rewind) := by
    have same := (session.load buffer).perform_finalize_again finalized session.settings
    simp only [step, onBuffer, held, checkOut]
    rw [same]
  constructor
  case held => rfl
  case counted => exact sound.counted finalized
  case again => exact again
  case answer => exact answer_command held .rewind
  case rewound =>
    have put := onBuffer_holdings session.settings held sound .rewind
    have sameStore : Function.update session.holdings.stores buffer.store
        (session.holdings.stores buffer.store) = session.holdings.stores :=
      Function.update_eq_self _ _
    rw [step, put]
    exact congrArg (fun stores => { session.holdings with
      stores := stores
      buffers := Function.update session.holdings.buffers name (some buffer.rewound) }) sameStore
  case contexts =>
    rw [step, contexts_onBuffer held]
    exact congrArg Session.contexts (session.saveContext_self buffer.context)
  case scans =>
    rintro isOpen start (rfl | rfl)
    · exact scans_of_finalized orderly held finalized isOpen
    · have scanned := scans_of_finalized orderly held finalized isOpen
      simp only [scan, List.map_cons, stepAll] at scanned ⊢
      rwa [again]

theorem staysFinal_of_finalized (orderly : session.holdings.Orderly)
    (held : session.buffers.get? name = some buffer) (finalized : buffer.finalized = true) :
    session.StaysFinal buffer.store := by
  have older : buffer.store < session.nextStore := orderly.numbered name buffer none held
  have each : session.holdings.Each (Holdings.OnStore buffer.store fun state =>
      state.buffer.finalized = true ∧ state.rows = session.rowsOf buffer.store) := by
    intro other sharer context sharerHeld same
    refine ⟨orderly.finalized_of_shared held sharerHeld same finalized, ?_⟩
    exact congrArg (fun number => (session.storeOf number).rows.toList) same
  intro later other sharer sharerHeld same
  obtain ⟨stillOrderly, stillEach⟩ := stepAll_each orderly
    (fun fresh newer => Holdings.kept_final _ (Nat.lt_of_lt_of_le older newer)) each
    (asksOnly_any later session)
  obtain ⟨stillFinalized, sameRows⟩ := stillEach other sharer none sharerHeld same
  have final := final_of_finalized stillOrderly sharerHeld stillFinalized
  have shown : (session.stepAll later).2.rowsOf sharer.store = session.rowsOf buffer.store :=
    sameRows
  rwa [shown] at final

/-- A buffer that is not replaced keeps its store. -/
theorem number_stepAll (orderly : session.holdings.Orderly)
    (held : session.buffers.get? name = some buffer) {actions : List Action}
    (stays : ∀ action ∈ actions, action.replaces name = false) :
    ∃ after : Buffer, (session.stepAll actions).2.buffers.get? name = some after ∧
      after.store = buffer.store := by
  induction actions generalizing session buffer with
  | nil => exact ⟨buffer, held, rfl⟩
  | cons action rest ih =>
      have first := stays action List.mem_cons_self
      obtain ⟨between, stillHeld⟩ := held_step orderly held first
      have notMade : ∀ owner, ¬ action.Makes name owner := fun _ => Action.not_makes_of_stays first
      obtain ⟨before, earlier, same⟩ := number_step orderly notMade stillHeld
      cases held.symm.trans earlier
      obtain ⟨after, afterHeld, sameAfter⟩ := ih (orderly_stepAll orderly [action]) stillHeld
        fun other listed => stays other (List.mem_cons_of_mem _ listed)
      exact ⟨after, afterHeld, sameAfter.trans same⟩

/-- When finalizing has succeeded, the cursor is moved over all rows. -/
theorem first_scan (orderly : session.holdings.Orderly)
    (held : session.buffers.get? name = some buffer) (isOpen : buffer.closed = false)
    (accepted : (session.step (.command name .finalize)).answer = .ok .done) :
    let final := (session.step (.command name .finalize)).state
    (final.stepAll (List.replicate ((final.rowsOf buffer.store).length + 1)
      (.command name .next))).1 = ResultState.scanOf (final.rowsOf buffer.store) := by
  intro final
  have sound : (session.load buffer).Sound := orderly.sound name buffer _ held
  have finalOrderly : final.holdings.Orderly := orderly_stepAll orderly [.command name .finalize]
  have finalHeld : final.buffers.get? name = _ := buffers_onBuffer_self orderly held .finalize
  have loaded : final.load ((session.load buffer).perform session.settings .finalize).state.buffer =
      ((session.load buffer).perform session.settings .finalize).state :=
    load_step_command orderly held .finalize
  have sameNumber := (sound.shape_perform session.settings .finalize).2
  have staysOpen : Command.finalize ≠ .close := nofun
  have registers := sound.perform_registers session.settings staysOpen
  obtain ⟨finalized, position, current⟩ :=
    sound.unread_of_answer ((answer_command held .finalize).symm.trans accepted)
  have rows : final.rowsOf buffer.store =
      ((session.load buffer).perform session.settings .finalize).state.rows := by
    have own := congrArg ResultState.rows loaded
    exact (congrArg final.rowsOf sameNumber.symm).trans own
  have scanned := (sound.perform session.settings .finalize).scans position current finalized
    (registers.closed.trans isOpen) final.settings
  rw [← List.map_replicate, stepAll_commands finalOrderly finalHeld, loaded, rows]
  exact scanned

/-- Once finalizing a buffer has succeeded, whatever is done afterwards: all that share its rows,
itself among them, have the rows and the count that finalizing left. Finalizing again succeeds and
only puts the cursor before the first row. As long as the buffer is open, moving the cursor from
there to the end delivers what the first full scan delivered. The same holds from the start of
a buffer that is made finalized. -/
theorem finalization_is_final (earlier : List Action) (name : String) (buffer : Buffer)
    (held : (initial.stepAll earlier).2.buffers.get? name = some buffer) :
    let session := (initial.stepAll earlier).2
    let done := session.step (.command name .finalize)
    let rows := done.state.rowsOf buffer.store
    (done.answer = .ok .done →
      done.state.StaysFinal buffer.store ∧
        (∀ later : List Action, (∀ action ∈ later, action.replaces name = false) →
          ∃ after : Buffer, (done.state.stepAll later).2.buffers.get? name = some after ∧
            after.store = buffer.store) ∧
        (buffer.closed = false →
          (done.state.stepAll (List.replicate (rows.length + 1) (.command name .next))).1 =
            ResultState.scanOf rows)) ∧
      (buffer.finalized = true → session.StaysFinal buffer.store) := by
  intro session done rows
  have orderly : session.holdings.Orderly := orderly_stepAll orderly_initial earlier
  refine ⟨fun accepted => ?_, staysFinal_of_finalized orderly held⟩
  have sound : (session.load buffer).Sound := orderly.sound name buffer _ held
  have doneOrderly : done.state.holdings.Orderly :=
    orderly_stepAll orderly [.command name .finalize]
  have doneHeld : done.state.buffers.get? name = _ := buffers_onBuffer_self orderly held .finalize
  have sameNumber := (sound.shape_perform session.settings .finalize).2
  obtain ⟨finalized, _, _⟩ :=
    sound.unread_of_answer ((answer_command held .finalize).symm.trans accepted)
  have stays := staysFinal_of_finalized doneOrderly doneHeld finalized
  refine ⟨sameNumber ▸ stays, fun later kept => ?_, fun isOpen => ?_⟩
  · obtain ⟨after, afterHeld, sameAfter⟩ := number_stepAll doneOrderly doneHeld kept
    exact ⟨after, afterHeld, sameAfter.trans sameNumber⟩
  · exact first_scan orderly held isOpen accepted

theorem finalization_is_final_sample :
    let earlier : List Action :=
      [.openBuffer "result" (some ⟨[]⟩) 1 none none, .command "result" (.add [.integer 1]),
        .command "result" (.add [.integer 2]), .command "result" (.setOffset 1)]
    let later : List Action :=
      [.command "result" .next, .command "result" .finalize, .command "result" (.setLimit 0),
        .command "result" (.add [.integer 3]), .command "result" .finalize]
    let done := (initial.stepAll earlier).2.step (.command "result" .finalize)
    done.answer = .ok .done ∧
      ∃ buffer : Buffer, (done.state.stepAll later).2.buffers.get? "result" = some buffer ∧
        (done.state.stepAll later).2.Final "result" buffer [[.integer 2]] := by
  intro earlier later
  dsimp only
  have held : (initial.stepAll earlier).2.buffers.get? "result" = some
      { Buffer.empty none ⟨[]⟩ 1 Buffer.unbounded 0 with offset := 1, rowCount := 2 } := by
    decide +kernel
  have accepted : ((initial.stepAll earlier).2.step (.command "result" .finalize)).answer =
      .ok .done := by decide +kernel
  have rows : ((initial.stepAll earlier).2.step (.command "result" .finalize)).state.rowsOf 0 =
      [[.integer 2]] := by decide +kernel
  obtain ⟨stays, kept, _⟩ := (finalization_is_final earlier "result" _ held).1 accepted
  obtain ⟨buffer, still, number⟩ := kept later (by decide)
  have final := stays later "result" buffer still number
  exact ⟨accepted, buffer, still, rows ▸ final⟩

end Session

end QueryResult
