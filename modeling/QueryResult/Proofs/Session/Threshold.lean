import QueryResult.Proofs.Buffer.Threshold
import QueryResult.Proofs.Session.Integrity

/-!
# The row threshold in sessions

Whether a row is refused for the threshold depends on the rows that the buffer
holds and on the threshold that it has by then, whatever was done before. A
buffer has more rows than its threshold allows only if its threshold was set
below its count, or if it is a copy of such a buffer.
-/

set_option autoImplicit false

namespace QueryResult.Session

variable {session : Session} {name : String} {buffer : Buffer} {lowered : String → Bool}

/-- The action sets the threshold of the buffer of that name below its count. -/
def lowers (session : Session) (name : String) : Action → Bool
  | .command own (.setThreshold rows) =>
      match session.buffers.get? own with
      | some buffer => decide (own = name) && decide (rows.toNat < buffer.rowCount)
      | none => false
  | _ => false

/-- The names of the buffers whose threshold was set below their count at some time, after another
action. A copy takes this over from its source. -/
def loweredAfter (session : Session) (lowered : String → Bool) (action : Action)
    (name : String) : Bool :=
  if session.Remakes name action then
    match action with
    | .copyBuffer _ source _ => lowered source
    | _ => false
  else lowered name || session.lowers name action

/-- The same after a run of actions. -/
def loweredSince : List Action → (String → Bool) → Session → String → Bool
  | [], lowered, _ => lowered
  | action :: rest, lowered, session =>
      loweredSince rest (session.loweredAfter lowered action) (session.step action).state

/-- Every buffer whose threshold was never set below its count is within it. -/
def Guarded (session : Session) (lowered : String → Bool) : Prop :=
  ∀ (name : String) (buffer : Buffer), session.buffers.get? name = some buffer →
    lowered name = false → buffer.Within

theorem never_of_loweredAfter {action : Action} (kept : ¬ session.Remakes name action)
    (never : session.loweredAfter lowered action name = false) :
    lowered name = false ∧ session.lowers name action = false := by
  unfold loweredAfter at never
  rwa [if_neg kept, Bool.or_eq_false_iff] at never

theorem raises_of_not_lowers (held : session.buffers.get? name = some buffer) {rows : UInt64}
    (raises : session.lowers name (.command name (.setThreshold rows)) = false) :
    buffer.rowCount ≤ rows.toNat := by
  simp only [lowers, held, decide_true, Bool.true_and] at raises
  exact Nat.not_lt.mp (of_decide_eq_false raises)

theorem Transition.within {action : Action} {state : ResultState}
    (transition : session.Transition name action state) (orderly : session.holdings.Orderly)
    (guarded : session.Guarded lowered)
    (never : session.loweredAfter lowered action name = false) : state.buffer.Within := by
  cases transition with
  | moved action buffer context held notOn kept =>
      obtain ⟨never, _⟩ := never_of_loweredAfter kept never
      have sound : (session.load buffer).Sound := orderly.sound name buffer _ held
      have within : (session.load buffer).buffer.Within := guarded name buffer held never
      refine sound.performAll_within within session.settings fun command listed rows sets => ?_
      rw [List.eq_of_mem_replicate listed] at sets
      cases sets
  | shared action buffer context held notOn kept =>
      obtain ⟨never, _⟩ := never_of_loweredAfter kept never
      exact guarded name buffer held never
  | performed command buffer context held =>
      obtain ⟨never, raises⟩ := never_of_loweredAfter (not_remakes_of_other fun _ => id) never
      have sound : (session.load buffer).Sound := orderly.sound name buffer _ held
      have within : (session.load buffer).buffer.Within := guarded name buffer held never
      refine sound.perform_within within session.settings fun rows sets => ?_
      subst sets
      exact raises_of_not_lowers held raises
  | opened => exact Nat.zero_le _
  | received source limit owner buffer adds made reports context held onlyAdd finalized =>
      have opened := ResultState.sound_opened owner buffer.schema buffer.visible
        (session.inheritedThreshold owner) session.nextStore (owner.bind session.contexts.get?)
      have filled := (opened.performAll session.settings adds)
      have within := opened.performAll_within (Nat.zero_le _) session.settings
        fun command listed rows sets => by
          obtain ⟨row, isAdd⟩ := onlyAdd command listed
          cases isAdd.symm.trans sets
      have finishes : ∀ rows, Command.finalize ≠ .setThreshold rows := nofun
      have final := filled.perform_within within session.settings fun rows sets =>
        absurd sets (finishes rows)
      rw [ResultState.perform, finalized] at final
      exact final
  | copied source owner buffer copy frozen context held copies remade =>
      have never : lowered source = false := by
        rwa [loweredAfter, if_pos remade] at never
      have within := guarded source buffer held never
      unfold ResultState.shallowCopy at copies
      split at copies
      · cases copies
        exact within
      · cases copies

theorem guarded_stepAll (orderly : session.holdings.Orderly) (guarded : session.Guarded lowered)
    (actions : List Action) :
    (session.stepAll actions).2.Guarded (loweredSince actions lowered session) := by
  induction actions generalizing session lowered with
  | nil => exact guarded
  | cons action rest ih =>
      refine ih (orderly_stepAll orderly [action]) fun name buffer held never => ?_
      exact (transition orderly held none).within orderly guarded never

/-! ## Rows that are added -/

theorem overThreshold_iff (held : session.buffers.get? name = some buffer)
    (sound : (session.load buffer).Sound) (whole : (session.load buffer).Whole)
    (unfinalized : buffer.finalized = false) {row : Row} (wide : buffer.visible ≤ row.length) :
    (session.step (.command name (.add row))).answer = .error (.overThreshold buffer.threshold) ↔
      (session.load buffer).Overflows row := by
  obtain ⟨refused, accepted⟩ := whole.add_guarded sound unfinalized session.settings wide
  rw [answer_command held]
  constructor
  · intro failed
    by_contra fits
    cases (accepted fits).1.symm.trans failed
  · intro overflows
    rw [refused overflows]
    rfl

theorem added_of_fits (orderly : session.holdings.Orderly)
    (held : session.buffers.get? name = some buffer) (whole : (session.load buffer).Whole)
    (unfinalized : buffer.finalized = false) {row : Row} (wide : buffer.visible ≤ row.length)
    (fits : ¬ (session.load buffer).Overflows row) :
    let added := session.step (.command name (.add row))
    added.answer = .ok .done ∧
      ∃ after : Buffer, added.state.buffers.get? name = some after ∧
        after.rowCount = (session.load buffer).countWith row ∧
        (added.state.load after).heldRows.length = (session.load buffer).countWith row := by
  intro added
  have sound : (session.load buffer).Sound := orderly.sound name buffer _ held
  obtain ⟨done, nowHeld, counted⟩ :=
    (whole.add_guarded sound unfinalized session.settings wide).2 fits
  refine ⟨(answer_command held (.add row)).trans done, _,
    buffers_onBuffer_self orderly held (.add row), counted, ?_⟩
  rw [load_step_command orderly held (.add row)]
  exact nowHeld

/-- In every session: as long as no attempt to finalize it has failed, a result that is not
finalized refuses a row for its threshold exactly if it would hold more rows with it than before,
and more than the threshold that it has by then; a row in the place of another one is always
accepted. No row takes the count above both what it was and the threshold. And the count is within
the threshold of every buffer whose threshold was never set below its count, by its own commands
or, if it is a copy, by those on the buffers that it comes from. -/
theorem threshold_guards_rows (actions : List Action) (name : String) (buffer : Buffer)
    (held : (initial.stepAll actions).2.buffers.get? name = some buffer) :
    let session := (initial.stepAll actions).2
    let state := session.load buffer
    let added := fun row : Row => session.step (.command name (.add row))
    (FinalizesCleanly buffer.store actions initial → buffer.finalized = false →
      buffer.rowCount = state.heldRows.length ∧
        ∀ row : Row, buffer.visible ≤ row.length →
          ((added row).answer = .error (.overThreshold buffer.threshold) ↔
            state.heldRows.length < state.countWith row ∧
              buffer.threshold.toNat < state.countWith row) ∧
          (state.Replaces row → (added row).answer = .ok .done) ∧
          ((added row).answer ≠ .error (.overThreshold buffer.threshold) →
            (added row).answer = .ok .done ∧
              ∃ after : Buffer, (added row).state.buffers.get? name = some after ∧
                after.rowCount = state.countWith row ∧
                ((added row).state.load after).heldRows.length = state.countWith row)) ∧
      (∀ row : Row, ∃ after : Buffer, (added row).state.buffers.get? name = some after ∧
        after.rowCount ≤ max buffer.rowCount buffer.threshold.toNat) ∧
      (loweredSince actions (fun _ => false) initial name = false →
        buffer.rowCount ≤ buffer.threshold.toNat) := by
  intro session state added
  have orderly : session.holdings.Orderly := orderly_stepAll orderly_initial actions
  have sound : state.Sound := orderly.sound name buffer _ held
  refine ⟨fun clean unfinalized => ?_, fun row => ?_, ?_⟩
  · have whole : state.Whole := whole_of_clean clean name buffer _ held rfl
    refine ⟨whole.counted_held sound unfinalized, fun row wide => ?_⟩
    have refusedIff := overThreshold_iff held sound whole unfinalized wide
    have accepted := added_of_fits orderly held whole unfinalized wide
    exact ⟨refusedIff, fun replaces => (accepted replaces.not_overflows).1,
      fun notRefused => accepted (mt refusedIff.mpr notRefused)⟩
  · have notFinalizing : Command.add row ≠ .finalize := nofun
    have effect := state.perform_effect session.settings notFinalizing
    exact ⟨_, buffers_onBuffer_self orderly held (.add row), sound.add_bounded effect⟩
  · exact guarded_stepAll orderly_initial (fun _ _ held => by cases held) actions name buffer held

theorem threshold_guards_rows_sample :
    let actions : List Action :=
      [.openBuffer "result" (some ⟨[]⟩) 1 none (some 0), .command "result" .setDistinct,
        .command "result" (.setThreshold 1), .command "result" (.add [.integer 1, .integer 2])]
    let session := (initial.stepAll actions).2
    let added := fun row : Row => session.step (.command "result" (.add row))
    (added [.integer 2]).answer = .error (.overThreshold 1) ∧
      (added [.integer 1]).answer = .ok .done ∧
      loweredSince actions (fun _ => false) initial "result" = false ∧
      ∀ buffer : Buffer, session.buffers.get? "result" = some buffer → buffer.Within := by
  intro actions
  dsimp only
  have held : (initial.stepAll actions).2.buffers.get? "result" = some
      { Buffer.empty none ⟨[]⟩ 1 1 0 with rowCount := 1, distinct := true } := by
    decide +kernel
  have never : loweredSince actions (fun _ => false) initial "result" = false := by decide +kernel
  obtain ⟨guards, _, within⟩ := threshold_guards_rows actions "result" _ held
  have clean : FinalizesCleanly 0 actions initial :=
    finalizesCleanly_of_accepted 0 (by decide +kernel)
  obtain ⟨_, rows⟩ := guards clean rfl
  have overflows : ((initial.stepAll actions).2.load
      { Buffer.empty none ⟨[]⟩ 1 1 0 with rowCount := 1, distinct := true }).Overflows
        [.integer 2] := by
    unfold ResultState.Overflows
    decide +kernel
  have replaces : ((initial.stepAll actions).2.load
      { Buffer.empty none ⟨[]⟩ 1 1 0 with rowCount := 1, distinct := true }).Replaces
        [.integer 1] := by
    decide +kernel
  have refused := (rows [.integer 2] (by decide)).1.mpr overflows
  have accepted := (rows [.integer 1] (by decide)).2.1 replaces
  refine ⟨refused, accepted, never, fun buffer present => ?_⟩
  cases held.symm.trans present
  exact within never

end QueryResult.Session
