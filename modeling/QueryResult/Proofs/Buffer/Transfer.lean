import QueryResult.Buffer.Transfer
import QueryResult.Proofs.Buffer.Registration
import QueryResult.Proofs.Buffer.Relabeling

/-!
# Reading finished rows

The rows of a result depend on no source. Reading them into another result so
registers nothing, and it comes to the same wherever the two results stand.
-/

set_option autoImplicit false

namespace QueryResult.ResultState

theorem add_unlinked (state : ResultState) {row : Row} (unlinked : row.Unlinked) :
    Registers [] state (state.add row).state := by
  rcases state.add_registers row with ⟨fault, refused⟩ | ⟨_, registers⟩
  · rw [refused]
    exact registers_nothing rfl rfl rfl rfl
  · rwa [unlinked.copies_eq_nil] at registers

theorem currentRow_mem {state : ResultState} {row : Row} (shown : state.currentRow = some row) :
    row ∈ state.rows := by
  unfold currentRow at shown
  split at shown
  · exact Array.mem_toList_iff.mpr (Array.mem_of_getElem? shown)
  · cases shown

theorem store_next (state : ResultState) : state.next.state.store = state.store := by
  unfold next
  split
  · rfl
  split
  · rfl
  dsimp only
  split
  · split <;> rfl
  · rfl

theorem transfer_registers (count : Nat) (pair : Transfer)
    (unlinked : ∀ row ∈ pair.source.rows, row.Unlinked) :
    Registers [] pair.target (transfer count pair).state.target := by
  induction count generalizing pair with
  | zero => exact registers_nothing rfl rfl rfl rfl
  | succ count ih =>
      have sameStore := pair.source.store_next
      have sameRows : pair.source.next.state.rows = pair.source.rows :=
        congrArg (fun store => store.rows.toList) sameStore
      simp only [transfer]
      split
      · exact registers_nothing rfl rfl rfl rfl
      · exact registers_nothing rfl rfl rfl rfl
      · split
        · exact registers_nothing rfl rfl rfl rfl
        · rename_i row shown
          have held := currentRow_mem shown
          rw [sameRows] at held
          have own := pair.target.add_unlinked
            ((unlinked row held).take pair.source.buffer.visible)
          split
          · exact own
          · refine own.then_nothing (ih ⟨pair.source.next.state, _⟩ ?_)
            rw [sameRows]
            exact unlinked

theorem performAll_next_registers (settings : Settings) {moves : List Command}
    (onlyNext : ∀ command ∈ moves, command = .next) (state : ResultState) :
    Registers [] state (state.performAll settings moves).2 := by
  refine performAll_holds (fun after => Registers [] state after) (fun command => command = .next)
    ?_ (registers_nothing rfl rfl rfl rfl) onlyNext
  rintro before command rfl reached
  refine reached.then_nothing ?_
  have unfinalizing : Command.next ≠ .finalize := by simp
  have effect := before.perform_effect settings unfinalizing
  generalize before.perform settings .next = outcome at effect
  cases effect <;> exact registers_nothing rfl rfl rfl rfl

/-- Reading one result into another moves the cursor of the first and adds rows to the second. -/
theorem transfer_runs (settings : Settings) (count : Nat) (pair : Transfer) :
    ∃ moves adds : List Command,
      (∀ command ∈ moves, command = .next) ∧ (∀ command ∈ adds, ∃ row, command = .add row) ∧
      (transfer count pair).state.source = (pair.source.performAll settings moves).2 ∧
      (transfer count pair).state.target =
        (pair.target.performAll settings adds).2 := by
  induction count generalizing pair with
  | zero => exact ⟨[], [], by simp, by simp, rfl, rfl⟩
  | succ count ih =>
      have moved : (pair.source.perform settings .next).state = pair.source.next.state :=
        state_mapAnswer _ _
      have added : ∀ row, (pair.target.perform settings (.add row)).state =
          (pair.target.add row).state := fun row => state_mapAnswer _ _
      simp only [transfer]
      split
      · exact ⟨[.next], [], by simp, by simp, moved.symm, rfl⟩
      · exact ⟨[.next], [], by simp, by simp, moved.symm, rfl⟩
      · split
        · exact ⟨[.next], [], by simp, by simp, moved.symm, rfl⟩
        · rename_i row shown
          split
          · exact ⟨[.next], [.add _], by simp, by simp, moved.symm, (added _).symm⟩
          · obtain ⟨moves, adds, onlyNext, onlyAdd, source, target⟩ := ih ⟨pair.source.next.state,
              (pair.target.add (row.take pair.source.buffer.visible)).state⟩
            refine ⟨.next :: moves, .add (row.take pair.source.buffer.visible) :: adds, ?_, ?_,
              ?_, ?_⟩
            · simpa using onlyNext
            · simpa using onlyAdd
            · simp only [source, performAll, moved]
            · simp only [target, performAll, added]

theorem store_performAll_next (settings : Settings) {moves : List Command}
    (onlyNext : ∀ command ∈ moves, command = .next) (state : ResultState) :
    (state.performAll settings moves).2.store = state.store ∧
      (state.performAll settings moves).2.buffer.store = state.buffer.store := by
  refine performAll_holds
    (fun after => after.store = state.store ∧ after.buffer.store = state.buffer.store)
    (fun command => command = .next) ?_ ⟨rfl, rfl⟩ onlyNext
  rintro before command rfl ⟨sameStore, sameNumber⟩
  have unfinalizing : Command.next ≠ .finalize := by simp
  have effect := before.perform_effect settings unfinalizing
  generalize before.perform settings .next = outcome at effect
  cases effect <;> exact ⟨sameStore, sameNumber⟩

theorem performAll_finalize {settings : Settings} {state final : ResultState}
    {commands : List Command} {events : List Event}
    (accepted : (state.performAll settings commands).2.finalize settings = .accept () final events) :
    (state.performAll settings (commands ++ [.finalize])).2 = final := by
  rw [performAll_append]
  simp only [performAll, perform, accepted]
  rfl

/-- Reads one result into another and finalizes the second. -/
def readInto (settings : Settings) (count : Nat) (pair : Transfer) : Outcome Transfer Unit :=
  (transfer count pair).andThen fun _ moved =>
    let finalized := moved.target.finalize settings
    ⟨finalized.answer, { moved with target := finalized.state }, finalized.events⟩

theorem readInto_runs (settings : Settings) (count : Nat) (pair : Transfer) :
    (∃ moves, (∀ command ∈ moves, command = .next) ∧
      (readInto settings count pair).state.source = (pair.source.performAll settings moves).2) ∧
    (∀ answer, (readInto settings count pair).answer = .ok answer →
      ∃ adds reports, (∀ command ∈ adds, ∃ row, command = .add row) ∧
        (pair.target.performAll settings adds).2.finalize settings =
          .accept () (readInto settings count pair).state.target reports) := by
  obtain ⟨moves, adds, onlyNext, onlyAdd, source, target⟩ := transfer_runs settings count pair
  unfold readInto
  generalize transfer count pair = transferred at source target
  obtain ⟨answer, moved, events⟩ := transferred
  cases answer with
  | error fault =>
      refine ⟨⟨moves, onlyNext, source⟩, fun answer accepted => ?_⟩
      cases accepted
  | ok answer =>
      refine ⟨⟨moves, onlyNext, source⟩, fun answer accepted => ?_⟩
      have accepted : (moved.target.finalize settings).answer = .ok () := accepted
      refine ⟨adds, (moved.target.finalize settings).events, onlyAdd, ?_⟩
      rw [← target]
      show moved.target.finalize settings =
        .accept () (moved.target.finalize settings).state (moved.target.finalize settings).events
      rw [Outcome.accept, ← accepted]

theorem readInto_registers (settings : Settings) (count : Nat) (pair : Transfer)
    (unlinked : ∀ row ∈ pair.source.rows, row.Unlinked) (sound : pair.target.Sound) :
    Registers [] pair.target (readInto settings count pair).state.target := by
  obtain ⟨_, adds, _, _, _, target⟩ := transfer_runs settings count pair
  have transferred := transfer_registers count pair unlinked
  have stillSound : (transfer count pair).state.target.Sound :=
    target ▸ sound.performAll settings adds
  unfold readInto
  generalize transfer count pair = outcome at transferred stillSound
  obtain ⟨answer, moved, events⟩ := outcome
  cases answer with
  | error fault => exact transferred
  | ok answer => exact transferred.then_nothing (stillSound.finalize_registers settings)

/-! ## Results elsewhere -/

variable {settings : Settings} {state : ResultState}

theorem registersAlike_of_no_copies (labels : Relabeling) {row : Row} (noCopies : row.copies = []) :
    state.RegistersAlike labels row := by
  rw [RegistersAlike, noCopies, registerCopies_nil, registerCopies_nil]

/-- Having the store under that number and being in that context. -/
def elsewhere (number : Nat) (context : Option Context) : Relabeling where
  lookup := id
  store := fun _ => number
  context := fun _ => context

theorem add_of_finalized (finalized : state.buffer.finalized = true) (row : Row) :
    state.add row =
      .refuse
        (if row.length < state.buffer.visible then .rowTooNarrow row.length state.buffer.visible
        else .addToFinalized)
        state := by
  unfold add
  rw [if_pos finalized]
  split <;> rfl

theorem close_elsewhere (number : Nat) (context : Option Context) :
    ∃ after, (state.relabel (elsewhere number context)).close =
      state.close.mapState (relabel (elsewhere number after)) := by
  have sameClosed : (state.relabel (elsewhere number context)).buffer.closed =
      state.buffer.closed := rfl
  simp only [close, sameClosed]
  split
  · exact ⟨context, rfl⟩
  · exact ⟨context.map fun own => own.releaseAll state.buffer.registered, rfl⟩

/-- A finalized result answers the same wherever it stands. -/
theorem perform_elsewhere (settings : Settings) (finalized : state.buffer.finalized = true)
    (number : Nat) (context : Option Context) (command : Command) :
    ∃ after, (state.relabel (elsewhere number context)).perform settings command =
      (state.perform settings command).mapState (relabel (elsewhere number after)) := by
  cases command with
  | add row =>
      have stillFinalized : (state.relabel (elsewhere number context)).buffer.finalized = true :=
        finalized
      refine ⟨context, ?_⟩
      rw [perform, perform, add_of_finalized finalized, add_of_finalized stillFinalized]
      rfl
  | close =>
      obtain ⟨after, closes⟩ := state.close_elsewhere number context
      refine ⟨after, ?_⟩
      rw [perform, closes]
      exact Outcome.mapState_mapAnswer _ fun _ _ => rfl
  | _ => exact ⟨context, perform_relabel_of_lookup rfl (by simp) (by simp)⟩

/-- Both results of a transfer, elsewhere. -/
def Transfer.relabel (source target : Relabeling) (pair : Transfer) : Transfer :=
  ⟨pair.source.relabel source, pair.target.relabel target⟩

/-- Reading rows that depend on no source comes to the same elsewhere. -/
theorem transfer_relabel (source target : Relabeling) (count : Nat) (pair : Transfer)
    (unlinked : ∀ row ∈ pair.source.rows, row.Unlinked) :
    transfer count (pair.relabel source target) =
      (transfer count pair).mapState (Transfer.relabel source target) := by
  induction count generalizing pair with
  | zero => rfl
  | succ count ih =>
      have sameRows : pair.source.next.state.rows = pair.source.rows :=
        congrArg (fun store => store.rows.toList) pair.source.store_next
      have moved : (pair.relabel source target).source.next =
          pair.source.next.mapState (relabel source) := next_relabel source
      have added : ∀ row : Row, row.Unlinked →
          (pair.relabel source target).target.add (row.take pair.source.buffer.visible) =
            (pair.target.add (row.take pair.source.buffer.visible)).mapState (relabel target) :=
        fun row free => add_relabel
          (registersAlike_of_no_copies target (free.take pair.source.buffer.visible).copies_eq_nil)
      have sameVisible : (pair.relabel source target).source.buffer.visible =
          pair.source.buffer.visible := rfl
      have sameCurrent : (pair.source.next.mapState (relabel source)).state.currentRow =
          pair.source.next.state.currentRow := rfl
      simp only [transfer, moved, sameVisible, sameCurrent]
      simp only [Outcome.mapState]
      split
      · rfl
      · rfl
      · split
        · rfl
        · rename_i row shown
          have held := currentRow_mem shown
          rw [sameRows] at held
          rw [added row (unlinked row held)]
          simp only [Outcome.mapState]
          split
          · rfl
          · have rest := ih ⟨pair.source.next.state,
              (pair.target.add (row.take pair.source.buffer.visible)).state⟩
              (by rw [sameRows]; exact unlinked)
            rw [Transfer.relabel] at rest
            rw [rest]
            rfl

theorem readInto_relabel (source target : Relabeling) (count : Nat) (pair : Transfer)
    (unlinked : ∀ row ∈ pair.source.rows, row.Unlinked) :
    readInto settings count (pair.relabel source target) =
      (readInto settings count pair).mapState (Transfer.relabel source target) := by
  rw [readInto, transfer_relabel source target count pair unlinked]
  refine Outcome.mapState_andThen _ fun _ moved => ?_
  have finalizes : (moved.relabel source target).target.finalize settings =
      (moved.target.finalize settings).mapState (relabel target) := finalize_relabel target
  rw [finalizes]
  rfl

end QueryResult.ResultState
