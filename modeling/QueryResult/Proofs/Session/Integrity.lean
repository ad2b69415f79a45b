import QueryResult.Proofs.Buffer.Integrity
import QueryResult.Proofs.Session.Membership
import QueryResult.Proofs.Session.Sharing
import QueryResult.Proofs.Session.Transitions

/-!
# Integrity in sessions

The representation of a result stays intact in every session in which no attempt
to finalize it fails, whoever of those that share its rows makes the attempt.
-/

set_option autoImplicit false

namespace QueryResult

namespace Holdings

theorem kept_positioned (mayAsk : Nat → Prop) (fresh : Nat) :
    Kept mayAsk fresh fun state => state.buffer.Positioned where
  anyContext := fun _ _ positioned => positioned
  performed := fun _ settings command sound _ positioned =>
    sound.perform_positioned positioned settings command
  opened := fun _ _ _ _ _ => Buffer.positioned_of_unread rfl rfl
  shared := fun _ _ _ positioned => positioned
  copied := by
    intro state owner frozen copy context _ _ copied
    obtain ⟨_, position, current⟩ := ResultState.shallowCopy_unread copied
    exact Buffer.positioned_of_unread position current

theorem kept_lookupWide (mayAsk : Nat → Prop) (fresh : Nat) :
    Kept mayAsk fresh ResultState.LookupWide where
  anyContext := fun _ _ lookupWide => lookupWide
  performed := fun _ settings command sound _ lookupWide => lookupWide.perform sound settings command
  opened := fun _ _ _ _ _ _ present => by cases present
  shared := fun _ _ _ lookupWide => lookupWide
  copied := by
    intro state owner frozen copy context _ _ copied index present
    unfold ResultState.shallowCopy at copied
    split at copied
    · cases copied
      cases present
    · cases copied

end Holdings

namespace Session

open Holdings

variable {session : Session} {name : String} {buffer : Buffer} {number : Nat}

/-- No attempt to finalize a buffer with the store of that number fails. -/
def FinalizesCleanly (number : Nat) : List Action → Session → Prop
  | [], _ => True
  | action :: rest, session =>
      (∀ name buffer, action = .command name .finalize →
        session.buffers.get? name = some buffer → buffer.store = number →
        ∀ fault, (session.step action).answer ≠ .error fault) ∧
      FinalizesCleanly number rest (session.step action).state

theorem finalizesCleanly_of_accepted (number : Nat) {actions : List Action} {session : Session}
    (accepted : ∀ answer ∈ (session.stepAll actions).1, answer.isOk = true) :
    FinalizesCleanly number actions session := by
  induction actions generalizing session with
  | nil => trivial
  | cons action rest ih =>
      refine ⟨?_, ih fun answer listed => accepted answer (.tail _ listed)⟩
      intro name buffer _ _ _ fault refused
      have answered := accepted _ List.mem_cons_self
      rw [refused] at answered
      cases answered

theorem Transition.whole {action : Action} {state : ResultState}
    (transition : session.Transition name action state) (orderly : session.holdings.Orderly)
    (each : session.holdings.Each (OnStore number ResultState.Whole))
    (clean : ∀ name buffer, action = .command name .finalize →
      session.buffers.get? name = some buffer → buffer.store = number →
      ∀ fault, (session.step action).answer ≠ .error fault)
    (same : state.buffer.store = number) : state.Whole := by
  cases transition with
  | moved action buffer context held =>
      have sound : (session.load buffer).Sound := orderly.sound name buffer _ held
      have own : buffer.store = number := (orderly.number_performAll held _ _ _).symm.trans same
      have whole : (session.load buffer).Whole := each name buffer _ held own
      exact whole.moves sound session.settings _
  | shared action buffer context held _ _ _ finalized =>
      exact ResultState.whole_of_finalized finalized
  | performed command buffer context held =>
      have sound : (session.load buffer).Sound := orderly.sound name buffer _ held
      have own : buffer.store = number :=
        (sound.shape_perform session.settings command).2.symm.trans same
      have whole : (session.load buffer).Whole := each name buffer _ held own
      refine whole.perform sound fun finalizing fault refused => ?_
      subst finalizing
      exact clean name buffer rfl held own fault ((answer_command held .finalize).trans refused)
  | opened => exact fun _ distinct => by cases distinct
  | received source limit owner buffer adds made reports context held onlyAdd finalized =>
      have sound := (ResultState.sound_opened owner buffer.schema buffer.visible
        (session.inheritedThreshold owner) session.nextStore
        (owner.bind session.contexts.get?)).performAll session.settings adds
      exact ResultState.whole_of_finalized (sound.finalize_unread finalized).1
  | copied source owner buffer copy frozen context held copies =>
      exact ResultState.whole_of_finalized (ResultState.shallowCopy_unread copies).1

/-- As long as no attempt to finalize it fails, a result that is not finalized has its rows where
they belong. -/
theorem whole_stepAll (orderly : session.holdings.Orderly)
    (each : session.holdings.Each (OnStore number ResultState.Whole)) {actions : List Action}
    (clean : FinalizesCleanly number actions session) :
    (session.stepAll actions).2.holdings.Each (OnStore number ResultState.Whole) := by
  induction actions generalizing session with
  | nil => exact each
  | cons action rest ih =>
      obtain ⟨first, others⟩ := clean
      refine ih (orderly_stepAll orderly [action]) (fun name buffer context held same => ?_) others
      exact (transition orderly held context).whole orderly each first same

theorem whole_of_clean {actions : List Action} (clean : FinalizesCleanly number actions initial) :
    (initial.stepAll actions).2.holdings.Each (OnStore number ResultState.Whole) :=
  whole_stepAll orderly_initial (fun _ _ _ held => by cases held) clean

theorem positioned_stepAll (actions : List Action) :
    (initial.stepAll actions).2.holdings.Each fun state => state.buffer.Positioned :=
  (stepAll_each orderly_initial (fun fresh _ => kept_positioned (fun _ => True) fresh)
    (fun _ _ _ held => by cases held) (asksOnly_any actions initial)).2

theorem lookupWide_stepAll (actions : List Action) :
    (initial.stepAll actions).2.holdings.Each ResultState.LookupWide :=
  (stepAll_each orderly_initial (fun fresh _ => kept_lookupWide (fun _ => True) fresh)
    (fun _ _ _ held => by cases held) (asksOnly_any actions initial)).2

/-! ## Faults -/

theorem checkContext_fails (session : Session) (owner : Option String) :
    Yields (fun fault => ¬ fault.Internal) (fun _ => True) (session.checkContext owner) := by
  unfold checkContext
  split
  · trivial
  split
  · trivial
  · exact id

theorem readFrom_fails (orderly : session.holdings.Orderly) {buffer : Buffer}
    (held : session.buffers.get? name = some buffer) (positioned : buffer.Positioned)
    (limit : UInt64) (owner : Option String) :
    ResultState.FailsOnly (fun fault => ¬ fault.Internal) (session.readFrom buffer limit owner) :=
  ResultState.readInto_fails session.settings _ _ (orderly.sound name buffer _ held) positioned
    ⟨ResultState.sound_opened _ _ _ _ _ _, rfl, rfl⟩

theorem readBuffer_fails (orderly : session.holdings.Orderly) {buffer : Buffer}
    (held : session.buffers.get? name = some buffer) (positioned : buffer.Positioned)
    (own : String) (limit : UInt64) (owner : Option String) :
    ResultState.FailsOnly (fun fault => ¬ fault.Internal)
      (session.readBuffer own name limit owner) := by
  have checks := session.checkContext_fails owner
  have reads := readFrom_fails orderly held positioned limit owner
  cases checked : session.checkContext owner with
  | error fault =>
      rw [checked] at checks
      simp only [readBuffer, checked]
      exact checks
  | ok _ =>
      rw [readBuffer_eq checked held, concludeReading]
      cases answered : (session.readFrom buffer limit owner).answer with
      | error fault => exact reads.accounts answered
      | ok _ => trivial

theorem copyBuffer_fails (held : session.buffers.get? name = some buffer) (own : String)
    (owner : Option String) :
    ResultState.FailsOnly (fun fault => ¬ fault.Internal) (session.copyBuffer own name owner) := by
  have checks := session.checkContext_fails owner
  unfold copyBuffer
  split
  · rename_i fault refused
    rw [refused] at checks
    exact checks
  rw [held]
  dsimp only
  split <;> trivial

/-- In every session, a result that no attempt to finalize has failed on is represented as it is
meant to be. No operation on its buffer meets a missing index, a row that is not held or a row that
is too narrow; and it meets a row without the column of a sort key only if it finalizes the result
and the key names no visible column. -/
theorem representation_stays_intact (actions : List Action) (name : String) (buffer : Buffer)
    (held : (initial.stepAll actions).2.buffers.get? name = some buffer)
    (clean : FinalizesCleanly buffer.store actions initial) :
    let session := (initial.stepAll actions).2
    (session.load buffer).Intact ∧
      ∀ action, action.operatesOn name = true → ∀ fault,
        (session.step action).answer = .error fault → fault.Internal →
        action = .command name .finalize ∧ fault = .sortKeyOutsideRow ∧
          ∃ order, buffer.order = some order ∧ ∃ key ∈ order.keys, buffer.visible ≤ key.column := by
  intro session
  have orderly : session.holdings.Orderly := orderly_stepAll orderly_initial actions
  have sound : (session.load buffer).Sound := orderly.sound name buffer _ held
  have positioned : buffer.Positioned := positioned_stepAll actions name buffer none held
  have whole : (session.load buffer).Whole := whole_of_clean clean name buffer _ held rfl
  have lookupWide : (session.load buffer).LookupWide := lookupWide_stepAll actions name buffer _ held
  refine ⟨sound.intact whole lookupWide, ?_⟩
  intro action operates fault refused internal
  cases action with
  | command own command =>
      cases of_decide_eq_true operates
      have failed := (answer_command held command).symm.trans refused
      by_cases finalizing : command = .finalize
      · subst finalizing
        have fails : ResultState.FailsOnly _
            ((session.load buffer).perform session.settings .finalize) :=
          (whole.finalize_fails sound session.settings).mapAnswer _
        obtain ⟨same, hidden⟩ := fails.accounts failed internal
        exact ⟨rfl, same, hidden⟩
      · have fails := whole.perform_fails sound positioned session.settings finalizing
        exact absurd internal (fails.accounts failed)
  | readBuffer own source limit owner =>
      cases of_decide_eq_true operates
      have fails := readBuffer_fails orderly held positioned own limit owner
      exact absurd internal (fails.accounts refused)
  | copyBuffer own source owner =>
      cases of_decide_eq_true operates
      exact absurd internal ((copyBuffer_fails held own owner).accounts refused)
  | destroy own =>
      cases of_decide_eq_true operates
      cases (answer_destroy held).symm.trans refused
  | _ => cases operates

theorem representation_stays_intact_sample :
    let actions : List Action :=
      [.openBuffer "result" (some ⟨[]⟩) 1 none none, .command "result" .setDistinct,
        .command "result" (.add [.integer 1, .integer 2]),
        .command "result" (.setOrder (some ⟨[⟨1, .ascending, .first⟩]⟩))]
    let buffer : Buffer :=
      { Buffer.empty none ⟨[]⟩ 1 Buffer.unbounded 0 with
        rowCount := 1
        distinct := true
        order := some ⟨[⟨1, .ascending, .first⟩]⟩ }
    (initial.stepAll actions).2.buffers.get? "result" = some buffer ∧
      ((initial.stepAll actions).2.load buffer).Intact := by
  intro actions buffer
  have held : (initial.stepAll actions).2.buffers.get? "result" = some buffer := by decide +kernel
  have clean : FinalizesCleanly buffer.store actions initial :=
    finalizesCleanly_of_accepted _ (by decide +kernel)
  exact ⟨held, (representation_stays_intact actions "result" buffer held clean).1⟩

end Session

end QueryResult
