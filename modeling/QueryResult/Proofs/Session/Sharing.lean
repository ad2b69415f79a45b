import QueryResult.Proofs.Session.Environment
import QueryResult.Proofs.Session.Membership

/-!
# Shared results

A store that is shared never changes again. What those who share it do, each
with a cursor of its own, is therefore nothing to the others: the answers to the
operations on one of them are the same if all the operations on other buffers
are left out.

The proof has the form of unwinding. `View` is all that operations on one buffer
depend on; an operation on another buffer leaves it as it is, and every other
action takes equal views to equal views.
-/

set_option autoImplicit false

namespace QueryResult

namespace Action

variable {name : String} {action : Action}

/-- The action is an operation on the buffer of that name: a command, copying it, reading its rows
into another buffer, or destroying it. -/
def operatesOn (name : String) : Action → Bool
  | .command buffer _ | .destroy buffer => decide (buffer = name)
  | .readBuffer _ source _ _ | .copyBuffer _ source _ => decide (source = name)
  | _ => false

/-- The action is an operation on the buffer of that name, or on no buffer. -/
def concerns (name : String) (action : Action) : Bool :=
  action.operatesOn name || !action.usesBuffers

theorem replaces_eq_false (notMade : ∀ owner, ¬ action.Makes name owner)
    (notDestroyed : action ≠ .destroy name) : action.replaces name = false := by
  cases action with
  | openBuffer buffer schema visible context threshold =>
      exact decide_eq_false fun same => notMade context ⟨same, rfl⟩
  | readBuffer buffer source limit context =>
      exact decide_eq_false fun same => notMade context ⟨same, rfl⟩
  | copyBuffer buffer source context =>
      exact decide_eq_false fun same => notMade context ⟨same, rfl⟩
  | destroy buffer => exact decide_eq_false fun same => notDestroyed (same ▸ rfl)
  | _ => rfl

theorem isOn_eq_false (notOperating : action.operatesOn name = false) :
    action.isOn name = false := by
  cases action with
  | command buffer command => exact notOperating
  | _ => rfl

theorem readsFrom_eq_false (notOperating : action.operatesOn name = false) :
    action.readsFrom name = false := by
  cases action with
  | readBuffer buffer source limit context => exact notOperating
  | _ => rfl

end Action

namespace Holdings

theorem kept_frozen {mayAsk : Nat → Prop} {fresh number : Nat} {store : RowStore}
    (older : number < fresh) (frozen : store.frozen = true) :
    Kept mayAsk fresh (OnStore number fun state => state.store = store) := by
  have refrozen : { store with frozen := true } = store := by rw [← frozen]
  refine kept_onStore (fun _ _ same => same) ?_ (fun isNew => absurd isNew.symm (Nat.ne_of_lt older))
    ?_ ?_
  · intro state settings command sound _ same
    exact (sound.store_perform (same ▸ frozen) settings command).trans same
  · intro state _ _ same
    rw [same]
    exact refrozen
  · intro state owner reached copy context _ same copied
    rw [(shallowCopy_eq copied).2.1, same]
    exact refrozen

end Holdings

namespace Session

variable {session other : Session} {name context : String} {buffer : Buffer} {own : Context}
  {action : Action}

/-- A store that is shared stays as it is, as long as anyone has it. -/
theorem storeOf_of_frozen (orderly : session.holdings.Orderly) {number : Nat}
    (frozen : (session.storeOf number).frozen = true) (older : number < session.nextStore)
    (later : List Action) (held : (session.stepAll later).2.buffers.get? name = some buffer)
    (same : buffer.store = number) :
    (session.stepAll later).2.storeOf number = session.storeOf number := by
  have now : session.holdings.Each
      (Holdings.OnStore number fun state => state.store = session.storeOf number) := by
    intro name buffer context held same
    exact congrArg session.storeOf same
  -- Questions leave a frozen store alone, so that anyone may ask them.
  have after := stepAll_each orderly
    (fun fresh newer => Holdings.kept_frozen (Nat.lt_of_lt_of_le older newer) frozen) now
    (asksOnly_any later session)
  subst same
  exact after.2 name buffer none held rfl

/-! ## Views -/

/-- All that the operations on the buffer of a name depend on. -/
structure View where
  settings : Settings
  thresholds : String → Option UInt64
  held : Option (Buffer × RowStore)

def view (session : Session) (name : String) : View where
  settings := session.settings
  thresholds := session.thresholds
  held := (session.buffers.get? name).map fun buffer => (buffer, session.storeOf buffer.store)

/-- The buffer of that name, if there is one, has a shared store. -/
structure ReadOnly (session : Session) (name : String) : Prop where
  orderly : session.holdings.Orderly
  frozen : ∀ buffer, session.buffers.get? name = some buffer →
    (session.storeOf buffer.store).frozen = true

theorem number_step (orderly : session.holdings.Orderly)
    (notMade : ∀ owner, ¬ action.Makes name owner) {after : Buffer}
    (held : (session.step action).state.buffers.get? name = some after) :
    ∃ buffer, session.buffers.get? name = some buffer ∧ after.store = buffer.store := by
  have notDestroyed : action ≠ .destroy name := by
    rintro rfl
    rw [step, buffers_destroy_self] at held
    cases held
  -- No operation on a buffer gives it another store.
  cases isOn : action.isOn name with
  | true =>
      obtain ⟨command, rfl⟩ := Action.eq_command_of_isOn isOn
      cases present : session.buffers.get? name with
      | none =>
          simp only [step, onBuffer, present] at held
          cases present.symm.trans held
      | some buffer =>
          rw [buffers_onBuffer_self orderly present] at held
          cases held
          have sound : (session.load buffer).Sound := orderly.sound name buffer _ present
          exact ⟨buffer, rfl, (sound.shape_perform session.settings command).2⟩
  | false =>
      rcases buffers_step_other orderly isOn (Action.replaces_eq_false notMade notDestroyed) with
        same | ⟨_, buffer, moves, present, only, moved⟩
      · exact ⟨after, same.symm.trans held, rfl⟩
      · cases held.symm.trans moved
        exact ⟨buffer, present, (ResultState.store_performAll_next session.settings only _).2⟩

theorem ReadOnly.storeOf_step (readOnly : session.ReadOnly name)
    (held : session.buffers.get? name = some buffer) {after : Buffer}
    (stillHeld : (session.step action).state.buffers.get? name = some after)
    (same : after.store = buffer.store) :
    (session.step action).state.storeOf after.store = session.storeOf buffer.store := by
  have older : buffer.store < session.nextStore :=
    readOnly.orderly.numbered name buffer none held
  rw [same]
  exact storeOf_of_frozen readOnly.orderly (readOnly.frozen buffer held) older [action] stillHeld
    same

theorem ReadOnly.after (readOnly : session.ReadOnly name)
    (notMade : ∀ owner, ¬ action.Makes name owner) : (session.step action).state.ReadOnly name where
  orderly := orderly_stepAll readOnly.orderly [action]
  frozen := by
    intro after stillHeld
    obtain ⟨buffer, held, same⟩ := number_step readOnly.orderly notMade stillHeld
    rw [readOnly.storeOf_step held stillHeld same]
    exact readOnly.frozen buffer held

theorem ReadOnly.held_other (readOnly : session.ReadOnly name)
    (notMade : ∀ owner, ¬ action.Makes name owner)
    (notOperating : action.operatesOn name = false) :
    ((session.step action).state.view name).held = (session.view name).held := by
  have notDestroyed : action ≠ .destroy name := by
    rintro rfl
    simp [Action.operatesOn] at notOperating
  have same : (session.step action).state.buffers.get? name = session.buffers.get? name := by
    rcases buffers_step_other readOnly.orderly (Action.isOn_eq_false notOperating)
      (Action.replaces_eq_false notMade notDestroyed) with same | ⟨reads, _⟩
    · exact same
    · rw [Action.readsFrom_eq_false notOperating] at reads
      cases reads
  rw [view, view, same]
  cases held : session.buffers.get? name with
  | none => rfl
  | some buffer =>
      exact congrArg (fun store => some (buffer, store))
        (readOnly.storeOf_step held (same.trans held) rfl)

/-! ## Operations on a read-only buffer -/

theorem missing_of_view (same : session.view name = other.view name)
    (missing : session.buffers.get? name = none) : other.buffers.get? name = none := by
  have sameHeld := congrArg View.held same
  simp only [view, missing] at sameHeld
  exact Option.map_eq_none_iff.mp sameHeld.symm

theorem held_of_view (same : session.view name = other.view name)
    (held : session.buffers.get? name = some buffer) :
    other.buffers.get? name = some buffer ∧
      other.storeOf buffer.store = session.storeOf buffer.store := by
  have sameHeld := congrArg View.held same
  simp only [view, held] at sameHeld
  obtain ⟨otherBuffer, otherHeld, pair⟩ := Option.map_eq_some_iff.mp sameHeld.symm
  cases congrArg Prod.fst pair
  exact ⟨otherHeld, congrArg Prod.snd pair⟩

theorem buffers_of_view (same : session.view name = other.view name) :
    session.buffers.get? name = other.buffers.get? name := by
  cases held : session.buffers.get? name with
  | none => exact (missing_of_view same held).symm
  | some buffer => exact (held_of_view same held).1.symm

theorem load_of_store (sameStore : other.storeOf buffer.store = session.storeOf buffer.store) :
    other.load buffer = (session.load buffer).relabel
      (ResultState.elsewhere buffer.store (buffer.context.bind other.contexts.get?)) := by
  rw [load, sameStore]
  rfl

theorem buffer_elsewhere {state : ResultState} {number : Nat} (same : state.buffer.store = number)
    (context : Option Context) :
    (state.relabel (ResultState.elsewhere number context)).buffer = state.buffer := by
  subst same
  rfl

theorem ReadOnly.finalized (readOnly : session.ReadOnly name)
    (held : session.buffers.get? name = some buffer) : buffer.finalized = true := by
  have sound : (session.load buffer).Sound := readOnly.orderly.sound name buffer _ held
  cases finalized : buffer.finalized with
  | true => rfl
  | false =>
      have unshared : (session.storeOf buffer.store).frozen = false := sound.unshared finalized
      rw [readOnly.frozen buffer held] at unshared
      cases unshared

theorem ReadOnly.command (readOnly : session.ReadOnly name)
    (same : session.view name = other.view name) (otherReadOnly : other.ReadOnly name)
    (command : Command) :
    (session.step (.command name command)).answer = (other.step (.command name command)).answer ∧
      ((session.step (.command name command)).state.view name).held =
        ((other.step (.command name command)).state.view name).held := by
  cases held : session.buffers.get? name with
  | none =>
      have otherMissing := missing_of_view same held
      simp only [step, onBuffer, held, otherMissing]
      exact ⟨rfl, by simp only [view, Outcome.refuse, held, otherMissing]; rfl⟩
  | some buffer =>
      obtain ⟨otherHeld, sameStore⟩ := held_of_view same held
      have sameSettings : session.settings = other.settings := congrArg View.settings same
      have sound : (session.load buffer).Sound := readOnly.orderly.sound name buffer _ held
      have finalized : (session.load buffer).buffer.finalized = true := readOnly.finalized held
      have number : ((session.load buffer).perform session.settings command).state.buffer.store =
          buffer.store := (sound.shape_perform session.settings command).2
      obtain ⟨context, performs⟩ := ResultState.perform_elsewhere session.settings finalized
        buffer.store (buffer.context.bind other.contexts.get?) command
      rw [← load_of_store sameStore] at performs
      have after := buffers_onBuffer_self readOnly.orderly held command
      have otherAfter := buffers_onBuffer_self otherReadOnly.orderly otherHeld command
      rw [← sameSettings, performs] at otherAfter
      have otherAfter : (other.step (.command name command)).state.buffers.get? name =
          some ((session.load buffer).perform session.settings command).state.buffer :=
        otherAfter.trans (congrArg some (buffer_elsewhere number context))
      constructor
      · rw [answer_command held, answer_command otherHeld, ← sameSettings, performs]
        rfl
      · have stored := readOnly.storeOf_step held after number
        have otherStored := otherReadOnly.storeOf_step otherHeld otherAfter number
        simp only [view, after, otherAfter, Option.map_some, stored, otherStored, sameStore]

/-- A copy is refused exactly if the result is not finalized. -/
theorem answer_copyBuffer (orderly : session.holdings.Orderly) {source : String}
    {owner : Option String} (checked : session.checkContext owner = .ok ())
    (held : session.buffers.get? source = some buffer) (copy : String) :
    (session.step (.copyBuffer copy source owner)).answer =
      .ok (if buffer.finalized then .threshold buffer.threshold else .notCopyable) := by
  have sound : (session.load buffer).Sound := orderly.sound source buffer _ held
  simp only [step, copyBuffer, checked, held, ResultState.shallowCopy]
  cases finalized : buffer.finalized with
  | false =>
      have uncopied : ¬ ((session.load buffer).buffer.finalized = true ∧
          (session.load buffer).buffer.rowCount ≤ (session.load buffer).store.rows.size) := by
        rintro ⟨contra, _⟩
        exact Bool.false_ne_true (finalized.symm.trans contra)
      rw [if_neg uncopied]
      rfl
  | true =>
      have complete : (session.load buffer).buffer.rowCount ≤
          (session.load buffer).store.rows.size := (sound.counted finalized).le
      rw [if_pos ⟨finalized, complete⟩]
      rfl

theorem ReadOnly.copyBuffer (readOnly : session.ReadOnly name)
    (same : session.view name = other.view name) (otherReadOnly : other.ReadOnly name)
    (copy : String) (owner : Option String) :
    (session.step (.copyBuffer copy name owner)).answer =
      (other.step (.copyBuffer copy name owner)).answer := by
  have sameCheck := checkContext_of_thresholds (congrArg View.thresholds same) owner
  cases checked : session.checkContext owner with
  | error fault =>
      simp only [step, Session.copyBuffer, checked, ← sameCheck]
      rfl
  | ok _ =>
      have otherChecked : other.checkContext owner = .ok () := sameCheck.symm.trans checked
      cases held : session.buffers.get? name with
      | none =>
          simp only [step, Session.copyBuffer, checked, otherChecked, held,
            missing_of_view same held]
          rfl
      | some buffer =>
          obtain ⟨otherHeld, _⟩ := held_of_view same held
          rw [answer_copyBuffer readOnly.orderly checked held,
            answer_copyBuffer otherReadOnly.orderly otherChecked otherHeld]

theorem readBuffer_outcome {source target : String} {owner : Option String}
    (checked : session.checkContext owner = .ok ())
    (held : session.buffers.get? source = some buffer) (different : source ≠ target)
    (limit : UInt64) :
    (session.step (.readBuffer target source limit owner)).answer =
        (session.readFrom buffer limit owner).answer.map
          (fun _ => .threshold (session.readFrom buffer limit owner).state.target.buffer.threshold) ∧
      (session.step (.readBuffer target source limit owner)).state.buffers.get? source =
        some (session.readFrom buffer limit owner).state.source.buffer := by
  rw [step, readBuffer_eq checked held]
  generalize session.readFrom buffer limit owner = finished
  unfold concludeReading
  cases finished.answer with
  | error fault =>
      dsimp only
      rw [buffers_saveContext]
      exact ⟨rfl, Table.get?_insert_self _ _ _⟩
  | ok _ =>
      dsimp only
      rw [buffers_install_other _ _ different]
      refine ⟨rfl, ?_⟩
      simp only [buffers_saveContext]
      exact Table.get?_insert_self _ _ _

theorem readFrom_of_view (orderly : session.holdings.Orderly)
    (same : session.view name = other.view name) (held : session.buffers.get? name = some buffer)
    (limit : UInt64) (owner : Option String) :
    other.readFrom buffer limit owner =
      (session.readFrom buffer limit owner).mapState (ResultState.Transfer.relabel
        (ResultState.elsewhere buffer.store (buffer.context.bind other.contexts.get?))
        (ResultState.elsewhere other.nextStore (owner.bind other.contexts.get?))) := by
  have sameSettings : session.settings = other.settings := congrArg View.settings same
  have sameThreshold :=
    inheritedThreshold_of_thresholds (congrArg View.thresholds same) owner
  have unlinked : ∀ row ∈ (session.load buffer).rows, row.Unlinked :=
    (orderly.unlinked name buffer _ held).rows
  rw [readFrom, load_of_store (held_of_view same held).2, ← sameThreshold, ← sameSettings]
  rw [readFrom, ← ResultState.readInto_relabel]
  · rfl
  · exact unlinked

theorem ReadOnly.readBuffer (readOnly : session.ReadOnly name)
    (same : session.view name = other.view name) {target : String} (different : name ≠ target)
    (limit : UInt64) (owner : Option String) :
    (session.step (.readBuffer target name limit owner)).answer =
        (other.step (.readBuffer target name limit owner)).answer ∧
      (session.step (.readBuffer target name limit owner)).state.buffers.get? name =
        (other.step (.readBuffer target name limit owner)).state.buffers.get? name := by
  have sameBuffers := buffers_of_view same
  have sameCheck := checkContext_of_thresholds (congrArg View.thresholds same) owner
  cases checked : session.checkContext owner with
  | error fault =>
      simp only [step, Session.readBuffer, checked, ← sameCheck]
      exact ⟨rfl, sameBuffers⟩
  | ok _ =>
      have otherChecked : other.checkContext owner = .ok () := sameCheck.symm.trans checked
      cases held : session.buffers.get? name with
      | none =>
          simp only [step, Session.readBuffer, checked, otherChecked, ← sameBuffers, held]
          exact ⟨rfl, sameBuffers⟩
      | some buffer =>
          obtain ⟨answer, after⟩ := readBuffer_outcome checked held different limit
          obtain ⟨otherAnswer, otherAfter⟩ :=
            readBuffer_outcome otherChecked (sameBuffers.symm.trans held) different limit
          rw [answer, after, otherAnswer, otherAfter,
            readFrom_of_view readOnly.orderly same held limit owner]
          refine ⟨rfl, congrArg some ?_⟩
          exact (buffer_elsewhere (session.store_readFrom buffer limit owner).2 _).symm

theorem ReadOnly.held_eq (readOnly : session.ReadOnly name)
    (same : session.view name = other.view name) (otherReadOnly : other.ReadOnly name)
    (notMade : ∀ owner, ¬ action.Makes name owner)
    (sameAfter : (session.step action).state.buffers.get? name =
      (other.step action).state.buffers.get? name) :
    ((session.step action).state.view name).held = ((other.step action).state.view name).held := by
  rw [view, view, sameAfter]
  cases otherAfter : (other.step action).state.buffers.get? name with
  | none => rfl
  | some after =>
      have stillHeld := sameAfter.trans otherAfter
      obtain ⟨buffer, held, number⟩ := number_step readOnly.orderly notMade stillHeld
      obtain ⟨otherHeld, sameStore⟩ := held_of_view same held
      refine congrArg (fun store => some (after, store)) ?_
      rw [readOnly.storeOf_step held stillHeld number,
        otherReadOnly.storeOf_step otherHeld otherAfter number, sameStore]

theorem ReadOnly.operation (readOnly : session.ReadOnly name)
    (same : session.view name = other.view name) (otherReadOnly : other.ReadOnly name)
    (notMade : ∀ owner, ¬ action.Makes name owner) (operates : action.operatesOn name = true) :
    (session.step action).answer = (other.step action).answer ∧
      ((session.step action).state.view name).held =
        ((other.step action).state.view name).held := by
  have sameBuffers := buffers_of_view same
  cases action with
  | command buffer command =>
      cases of_decide_eq_true operates
      exact readOnly.command same otherReadOnly command
  | destroy buffer =>
      cases of_decide_eq_true operates
      refine ⟨?_, readOnly.held_eq same otherReadOnly notMade
        ((buffers_destroy_self _ _).trans (buffers_destroy_self _ _).symm)⟩
      cases held : session.buffers.get? name with
      | none =>
          simp only [step, destroy, ← sameBuffers, held]
          rfl
      | some buffer =>
          rw [answer_destroy held, answer_destroy (sameBuffers.symm.trans held)]
  | readBuffer target source limit owner =>
      cases of_decide_eq_true operates
      have different : name ≠ target := fun isTarget => notMade owner ⟨isTarget.symm, rfl⟩
      obtain ⟨answer, after⟩ := readOnly.readBuffer same different limit owner
      exact ⟨answer, readOnly.held_eq same otherReadOnly notMade after⟩
  | copyBuffer copy source owner =>
      cases of_decide_eq_true operates
      have different : name ≠ copy := fun isCopy => notMade owner ⟨isCopy.symm, rfl⟩
      refine ⟨readOnly.copyBuffer same otherReadOnly copy owner,
        readOnly.held_eq same otherReadOnly notMade ?_⟩
      simp only [step, buffers_copyBuffer_other different]
      exact sameBuffers
  | _ => cases operates

/-- An operation on other buffers does not change the view. -/
theorem ReadOnly.view_other (readOnly : session.ReadOnly name)
    (notMade : ∀ owner, ¬ action.Makes name owner) (unconcerned : action.concerns name = false) :
    (session.step action).state.view name = session.view name := by
  obtain ⟨notOperating, uses⟩ := Bool.or_eq_false_iff.mp unconcerned
  have uses : action.usesBuffers = true := by simpa using uses
  have held := readOnly.held_other notMade notOperating
  simp only [view, settings_step session uses, thresholds_step readOnly.orderly uses] at held ⊢
  rw [held]

/-- Any other action takes equal views to equal views. -/
theorem ReadOnly.view_concerned (readOnly : session.ReadOnly name)
    (same : session.view name = other.view name) (otherReadOnly : other.ReadOnly name)
    (notMade : ∀ owner, ¬ action.Makes name owner) (concerned : action.concerns name = true) :
    (session.step action).state.view name = (other.step action).state.view name ∧
      (action.operatesOn name = true →
        (session.step action).answer = (other.step action).answer) := by
  have sameSettings : session.settings = other.settings := congrArg View.settings same
  have sameThresholds : session.thresholds = other.thresholds := congrArg View.thresholds same
  cases operates : action.operatesOn name with
  | true =>
      have uses : action.usesBuffers = true := by
        cases action with
        | openBuffer | readBuffer | copyBuffer | destroy | command => rfl
        | _ => cases operates
      obtain ⟨answer, held⟩ := readOnly.operation same otherReadOnly notMade operates
      refine ⟨?_, fun _ => answer⟩
      simp only [view, settings_step _ uses, thresholds_step readOnly.orderly uses,
        thresholds_step otherReadOnly.orderly uses, sameSettings, sameThresholds] at held ⊢
      rw [held]
  | false =>
      have unused : action.usesBuffers = false := by
        rw [Action.concerns, operates] at concerned
        simpa using concerned
      obtain ⟨settings, thresholds⟩ := environment_step sameSettings sameThresholds unused
      have held := readOnly.held_other notMade operates
      have otherHeld := otherReadOnly.held_other notMade operates
      refine ⟨?_, fun contra => by cases contra⟩
      have sameHeld : ((session.step action).state.view name).held =
          ((other.step action).state.view name).held :=
        held.trans ((congrArg View.held same).trans otherHeld.symm)
      simp only [view] at sameHeld ⊢
      rw [settings, thresholds, sameHeld]

/-! ## Runs -/

/-- The answers to the actions that count. -/
def answersTo (counts : Action → Bool) : List Action → Session → List (Except Fault Answer)
  | [], _ => []
  | action :: rest, session =>
      (if counts action then [(session.step action).answer] else []) ++
        answersTo counts rest (session.step action).state

/-- Leaving out the operations on other buffers changes nothing for a buffer whose store is
shared. -/
theorem ReadOnly.run (readOnly : session.ReadOnly name)
    (same : session.view name = other.view name) (otherReadOnly : other.ReadOnly name)
    {later : List Action} (notMade : ∀ action ∈ later, ∀ owner, ¬ action.Makes name owner) :
    answersTo (Action.operatesOn name) later session =
        answersTo (Action.operatesOn name) (later.filter (Action.concerns name)) other ∧
      (session.stepAll later).2.view name =
        (other.stepAll (later.filter (Action.concerns name))).2.view name := by
  induction later generalizing session other with
  | nil => exact ⟨rfl, same⟩
  | cons action rest ih =>
      have actionNotMade := notMade action List.mem_cons_self
      have restNotMade : ∀ action ∈ rest, ∀ owner, ¬ action.Makes name owner :=
        fun other listed => notMade other (List.mem_cons_of_mem _ listed)
      cases concerned : action.concerns name with
      | true =>
          obtain ⟨sameAfter, sameAnswer⟩ :=
            readOnly.view_concerned same otherReadOnly actionNotMade concerned
          obtain ⟨answers, final⟩ := ih (readOnly.after actionNotMade) sameAfter
            (otherReadOnly.after actionNotMade) restNotMade
          rw [List.filter_cons_of_pos concerned, answersTo, answersTo, answers]
          refine ⟨?_, final⟩
          cases operates : action.operatesOn name with
          | true => rw [sameAnswer operates]
          | false => rfl
      | false =>
          -- Left out on the right, where nothing happens: on the left the view stays as it is.
          have sameAfter := (readOnly.view_other actionNotMade concerned).trans same
          obtain ⟨answers, final⟩ := ih (readOnly.after actionNotMade) sameAfter otherReadOnly
            restNotMade
          have notOperating : action.operatesOn name = false :=
            (Bool.or_eq_false_iff.mp concerned).1
          rw [List.filter_cons_of_neg (by simp [concerned]), answersTo, notOperating, answers]
          exact ⟨rfl, final⟩

/-- Copying a finalized result freezes its store, which the copy shares from then on. -/
theorem copyBuffer_shares {source copy : String} {owner : Option String}
    (checked : session.checkContext owner = .ok ())
    (held : session.buffers.get? source = some buffer) {threshold : UInt64}
    (accepted : (session.step (.copyBuffer copy source owner)).answer = .ok (.threshold threshold)) :
    let after := (session.step (.copyBuffer copy source owner)).state
    (∃ made, after.buffers.get? copy = some made ∧ made.store = buffer.store) ∧
      after.storeOf buffer.store = { session.storeOf buffer.store with frozen := true } ∧
      (source ≠ copy → after.buffers.get? source = some buffer) := by
  intro after
  simp only [after]
  simp only [step, copyBuffer, checked, held] at accepted ⊢
  cases copied : (session.load buffer).shallowCopy owner with
  | none =>
      rw [copied] at accepted
      simp [Outcome.accept] at accepted
  | some result =>
      obtain ⟨frozen, made⟩ := result
      obtain ⟨_, frozenStore, number⟩ := Holdings.shallowCopy_eq copied
      dsimp only [Outcome.accept]
      refine ⟨⟨made, buffers_install_self _ _ _, number⟩, ?_, fun different =>
        (buffers_install_other _ _ different).trans held⟩
      have stored := congrFun (congrArg Holdings.stores (holdings_install
        { session with stores := session.stores.insert buffer.store frozen.store } copy made))
        buffer.store
      refine stored.trans ?_
      rw [holdings_insertStore]
      exact (Function.update_self _ _ _).trans frozenStore

/-- What holds of the shared results of a session. -/
structure SharesSafely (session : Session) : Prop where
  /-- Only finalized results are shared. -/
  finalized : ∀ name buffer, session.buffers.get? name = some buffer →
    (session.storeOf buffer.store).frozen = true → buffer.finalized = true
  /-- A copy is refused exactly if the result is not finalized. -/
  answered : ∀ name buffer copy owner, session.buffers.get? name = some buffer →
    session.checkContext owner = .ok () →
    (session.step (.copyBuffer copy name owner)).answer =
      .ok (if buffer.finalized then .threshold buffer.threshold else .notCopyable)
  /-- A copy shares the store of its source, with the same rows and the same index. -/
  shared : ∀ name buffer copy owner threshold, session.buffers.get? name = some buffer →
    session.checkContext owner = .ok () →
    (session.step (.copyBuffer copy name owner)).answer = .ok (.threshold threshold) →
    let after := (session.step (.copyBuffer copy name owner)).state
    (∃ made, after.buffers.get? copy = some made ∧ made.store = buffer.store) ∧
      after.storeOf buffer.store = { session.storeOf buffer.store with frozen := true } ∧
      (name ≠ copy → after.buffers.get? name = some buffer)
  /-- The rows and the index of a shared store never change, whoever of those who share it is left. -/
  unchanged : ∀ name buffer, session.buffers.get? name = some buffer →
    (session.storeOf buffer.store).frozen = true →
    ∀ (later : List Action) member sharing,
      (session.stepAll later).2.buffers.get? member = some sharing →
      sharing.store = buffer.store →
      (session.stepAll later).2.storeOf sharing.store = session.storeOf buffer.store
  /-- As long as the name is not given to a new buffer, operations on a buffer with a shared store
  answer what they answer if the operations on all other buffers are left out, and make of it the
  same. -/
  independent : ∀ name buffer, session.buffers.get? name = some buffer →
    (session.storeOf buffer.store).frozen = true →
    ∀ later : List Action, (∀ action ∈ later, ∀ owner, ¬ action.Makes name owner) →
      answersTo (Action.operatesOn name) later session =
          answersTo (Action.operatesOn name) (later.filter (Action.concerns name)) session ∧
        (session.stepAll later).2.buffers.get? name =
          (session.stepAll (later.filter (Action.concerns name))).2.buffers.get? name

theorem readOnly_of_frozen (orderly : session.holdings.Orderly)
    (held : session.buffers.get? name = some buffer)
    (frozen : (session.storeOf buffer.store).frozen = true) : session.ReadOnly name where
  orderly := orderly
  frozen := by
    intro present alsoHeld
    cases held.symm.trans alsoHeld
    exact frozen

/-- Whatever was done before, results are shared safely: a shared store is finalized and never
changes, and those who share it do not interfere with each other. -/
theorem results_shared_safely (actions : List Action) :
    ((initial.stepAll actions).2).SharesSafely := by
  have orderly := orderly_stepAll orderly_initial actions
  generalize (initial.stepAll actions).2 = session at orderly
  constructor
  · intro name buffer held frozen
    exact (readOnly_of_frozen orderly held frozen).finalized held
  · intro name buffer copy owner held checked
    exact answer_copyBuffer orderly checked held copy
  · intro name buffer copy owner threshold held checked accepted
    exact copyBuffer_shares checked held accepted
  · intro name buffer held frozen later member sharing stillHeld same
    have older : buffer.store < session.nextStore := orderly.numbered name buffer none held
    rw [same]
    exact storeOf_of_frozen orderly frozen older later stillHeld same
  · intro name buffer held frozen later notMade
    have readOnly := readOnly_of_frozen orderly held frozen
    obtain ⟨answers, final⟩ := readOnly.run rfl readOnly notMade
    refine ⟨answers, ?_⟩
    have sameHeld := congrArg (fun view => view.held.map Prod.fst) final
    simpa [view, Option.map_map, Function.comp_def] using sameHeld

end Session

end QueryResult
