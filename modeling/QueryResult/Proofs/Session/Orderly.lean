import QueryResult.Proofs.Buffer.Unlinked
import QueryResult.Proofs.Session.Steps

/-!
# Orderly sessions

In the holdings of every session, each buffer is sound with its store, nothing
that is held depends on a source, and two buffers share a store only if it is
frozen. `Step.change` says what a change of the holdings does to one buffer with
its store, so that a property of all buffers is kept by every change if it is
kept by the few things that can happen to one.
-/

set_option autoImplicit false

namespace QueryResult

namespace Holdings

variable {mayAsk : Nat → Prop} {before after : Holdings}

/-- The property holds of every buffer with its store. -/
def Each (holds : ResultState → Prop) (holdings : Holdings) : Prop :=
  ∀ name buffer context, holdings.buffers name = some buffer → holds (holdings.load buffer context)

/-- What holds of the buffers and stores of every session. -/
structure Orderly (holdings : Holdings) : Prop where
  numbered : holdings.Each fun state => state.buffer.store < holdings.nextStore
  sound : holdings.Each ResultState.Sound
  unlinked : holdings.Each ResultState.Unlinked
  shared : ∀ name other buffer otherBuffer, name ≠ other →
    holdings.buffers name = some buffer → holdings.buffers other = some otherBuffer →
    buffer.store = otherBuffer.store → (holdings.stores buffer.store).frozen = true

/-- What a change of the holdings can make of a buffer with its store. -/
inductive Change (mayAsk : Nat → Prop) (before after : Holdings) : ResultState → Prop
  | kept (name : String) (buffer : Buffer) (context : Option Context)
      (held : before.buffers name = some buffer) :
      Change mayAsk before after (before.load buffer context)
  | shared (name : String) (buffer : Buffer) (context : Option Context)
      (held : before.buffers name = some buffer) (finalized : buffer.finalized = true) :
      Change mayAsk before after
        { before.load buffer context with
          store := { before.stores buffer.store with frozen := true } }
  | performed (name : String) (buffer : Buffer) (context changed : Option Context)
      (settings : Settings) (commands : List Command) (held : before.buffers name = some buffer)
      (allowed : ∀ command ∈ commands, command.probes = true → mayAsk buffer.store) :
      Change mayAsk before after
        { ((before.load buffer context).performAll settings commands).2 with context := changed }
  | made (owner : Option String) (schema : Schema) (visible : Nat) (threshold : UInt64)
      (context changed : Option Context) (settings : Settings) (commands : List Command)
      (silent : ∀ command ∈ commands, command.probes = false)
      (fresh : before.nextStore < after.nextStore) :
      Change mayAsk before after
        { ((ResultState.opened owner schema visible threshold before.nextStore
            context).performAll settings commands).2 with
          context := changed }
  | copied (source : String) (buffer copy : Buffer) (context changed : Option Context)
      (owner : Option String) (frozen : ResultState) (held : before.buffers source = some buffer)
      (copied : (before.load buffer context).shallowCopy owner = some (frozen, copy)) :
      Change mayAsk before after ⟨copy, frozen.store, changed⟩

theorem update_eq_some {own name : String} {object : Option Buffer} {buffer : Buffer}
    (held : Function.update before.buffers own object name = some buffer) :
    name = own ∧ object = some buffer ∨ name ≠ own ∧ before.buffers name = some buffer := by
  by_cases same : name = own
  · subst same
    rw [Function.update_self] at held
    exact .inl ⟨rfl, held⟩
  · rw [Function.update_of_ne same] at held
    exact .inr ⟨same, held⟩

theorem Orderly.follow (orderly : before.Orderly) {source : String} {content : Bytes}
    {name : String} {buffer : Buffer}
    (held : (before.follow source content).buffers name = some buffer) :
    before.buffers name = some buffer ∧
      (before.follow source content).stores buffer.store = before.stores buffer.store := by
  obtain ⟨own, present, followed⟩ := Option.map_eq_some_iff.mp held
  have unlinked := orderly.unlinked name own none present
  have same : own = buffer := (unlinked.follow_buffer source content).symm.trans followed
  subst same
  exact ⟨present, unlinked.store.follow source content⟩

theorem Orderly.number_performAll (orderly : before.Orderly) {name : String} {buffer : Buffer}
    (held : before.buffers name = some buffer) (context : Option Context) (settings : Settings)
    (commands : List Command) :
    ((before.load buffer context).performAll settings commands).2.buffer.store = buffer.store :=
  ((orderly.sound name buffer context held).shape_performAll settings commands).2

theorem number_opened (owner : Option String) (schema : Schema) (visible : Nat)
    (threshold : UInt64) (store : Nat) (context : Option Context) (settings : Settings)
    (commands : List Command) :
    ((ResultState.opened owner schema visible threshold store context).performAll settings
      commands).2.buffer.store = store :=
  ((ResultState.sound_opened owner schema visible threshold store context).shape_performAll
    settings commands).2

theorem Orderly.stores_frozen (orderly : before.Orderly) {name : String} {buffer : Buffer}
    (held : before.buffers name = some buffer) (context : Option Context) (settings : Settings)
    (commands : List Command) {number : Nat} (frozen : (before.stores number).frozen = true) :
    (before.put name ((before.load buffer context).performAll settings commands).2).stores number =
      before.stores number := by
  have own := orderly.number_performAll held context settings commands
  by_cases same : number = buffer.store
  · subst same
    have unchanged := (orderly.sound name buffer context held).store_performAll frozen settings
      commands
    rw [← own, put_stores_self, own]
    exact unchanged
  · exact put_stores_other before name (own.symm ▸ same)

/-- Carrying out commands on a buffer changes nothing for the others. -/
theorem Orderly.stores_performed (orderly : before.Orderly) {name other : String}
    {buffer otherBuffer : Buffer} (different : other ≠ name)
    (held : before.buffers name = some buffer) (otherHeld : before.buffers other = some otherBuffer)
    (context : Option Context) (settings : Settings) (commands : List Command) :
    (before.put name ((before.load buffer context).performAll settings commands).2).stores
        otherBuffer.store = before.stores otherBuffer.store := by
  by_cases sharing : otherBuffer.store = buffer.store
  · exact orderly.stores_frozen held context settings commands
      (orderly.shared other name otherBuffer buffer different otherHeld held sharing)
  · have own := orderly.number_performAll held context settings commands
    exact put_stores_other before name (own.symm ▸ sharing)

theorem shallowCopy_eq {state frozen : ResultState} {owner : Option String} {copy : Buffer}
    (copied : state.shallowCopy owner = some (frozen, copy)) :
    state.buffer.finalized = true ∧ frozen.store = { state.store with frozen := true } ∧
      copy.store = state.buffer.store := by
  unfold ResultState.shallowCopy at copied
  split at copied
  · rename_i copyable
    cases copied
    exact ⟨copyable.1, rfl, rfl⟩
  · cases copied

/-- Whoever shares a store with a finalized buffer is finalized. -/
theorem Orderly.finalized_of_shared (orderly : before.Orderly) {name other : String}
    {buffer otherBuffer : Buffer} (held : before.buffers name = some buffer)
    (otherHeld : before.buffers other = some otherBuffer)
    (same : otherBuffer.store = buffer.store) (finalized : buffer.finalized = true) :
    otherBuffer.finalized = true := by
  by_cases own : other = name
  · subst own
    rw [held] at otherHeld
    exact Option.some.inj otherHeld ▸ finalized
  · have frozen := orderly.shared other name otherBuffer buffer own otherHeld held same
    by_contra unfinalized
    have unshared := (orderly.sound other otherBuffer none otherHeld).unshared
      (Bool.eq_false_iff.mpr unfinalized)
    simp [load, frozen] at unshared

theorem Orderly.change (orderly : before.Orderly) (step : Step mayAsk before after) {name : String}
    {buffer : Buffer} (held : after.buffers name = some buffer) (context : Option Context) :
    Change mayAsk before after (after.load buffer context) := by
  have stored : ∀ {store : RowStore}, after.stores buffer.store = store →
      after.load buffer context = ⟨buffer, store, context⟩ := by
    rintro store rfl
    rfl
  have unchanged : before.buffers name = some buffer →
      after.stores buffer.store = before.stores buffer.store →
      Change mayAsk before after (after.load buffer context) := by
    intro present same
    rw [stored same]
    exact .kept name buffer context present
  cases step with
  | followed source content =>
      obtain ⟨present, same⟩ := orderly.follow held
      exact unchanged present same
  | performed own ownBuffer ownContext settings commands ownHeld allowed =>
      rcases update_eq_some held with ⟨rfl, isOwn⟩ | ⟨different, present⟩
      · cases isOwn
        rw [stored (put_stores_self before name _)]
        exact .performed name ownBuffer ownContext context settings commands ownHeld allowed
      · exact unchanged present (orderly.stores_performed different ownHeld present _ _ _)
  | made own owner schema visible threshold ownContext settings commands silent =>
      rcases update_eq_some held with ⟨rfl, isNew⟩ | ⟨_, present⟩
      · cases isNew
        rw [stored (put_stores_self before name _)]
        exact .made owner schema visible threshold ownContext context settings commands silent
          (Nat.lt_succ_self _)
      · have number := number_opened owner schema visible threshold before.nextStore ownContext
          settings commands
        have older : buffer.store < before.nextStore := orderly.numbered name buffer none present
        exact unchanged present
          (put_stores_other before own (number.symm ▸ Nat.ne_of_lt older))
  | copied own source sourceBuffer copy sourceContext owner frozen sourceHeld copied =>
      obtain ⟨finalized, frozenStore, number⟩ := shallowCopy_eq copied
      rcases update_eq_some held with ⟨rfl, isCopy⟩ | ⟨_, present⟩
      · cases isCopy
        have shares : Function.update before.stores sourceBuffer.store frozen.store buffer.store =
            frozen.store := by
          rw [number]
          exact Function.update_self _ _ _
        rw [stored shares]
        exact .copied source sourceBuffer buffer sourceContext context owner frozen sourceHeld copied
      · by_cases sharing : buffer.store = sourceBuffer.store
        · have alsoFinalized := orderly.finalized_of_shared sourceHeld present sharing finalized
          have nowFrozen : Function.update before.stores sourceBuffer.store frozen.store
              buffer.store = { before.stores buffer.store with frozen := true } := by
            rw [sharing, Function.update_self, frozenStore]
            rfl
          rw [stored nowFrozen]
          exact .shared name buffer context present alsoFinalized
        · exact unchanged present (Function.update_of_ne sharing _ _)
  | destroyed own =>
      rcases update_eq_some held with ⟨rfl, isNone⟩ | ⟨_, present⟩
      · cases isNone
      · exact unchanged present rfl

/-! ## Properties of all buffers -/

/-- The property is kept by all that can happen to a buffer with its store. -/
structure Kept (mayAsk : Nat → Prop) (fresh : Nat) (holds : ResultState → Prop) : Prop where
  anyContext : ∀ state context, holds state → holds { state with context := context }
  performed : ∀ state settings command, state.Sound →
    (command.probes = true → mayAsk state.buffer.store) → holds state →
    holds (state.perform settings command).state
  opened : ∀ owner schema visible threshold context,
    holds (ResultState.opened owner schema visible threshold fresh context)
  shared : ∀ state, state.Sound → state.buffer.finalized = true → holds state →
    holds { state with store := { state.store with frozen := true } }
  copied : ∀ state owner frozen copy context, state.Sound → holds state →
    state.shallowCopy owner = some (frozen, copy) → holds ⟨copy, frozen.store, context⟩

variable {holds : ResultState → Prop} {fresh : Nat}

theorem Kept.performAll (kept : Kept mayAsk fresh holds) {state : ResultState}
    (sound : state.Sound) (held : holds state) (settings : Settings) {commands : List Command}
    (allowed : ∀ command ∈ commands, command.probes = true → mayAsk state.buffer.store) :
    holds (state.performAll settings commands).2 := by
  have both : (state.performAll settings commands).2.Sound ∧
      (state.performAll settings commands).2.buffer.store = state.buffer.store ∧
      holds (state.performAll settings commands).2 := by
    refine ResultState.performAll_holds
      (fun after => after.Sound ∧ after.buffer.store = state.buffer.store ∧ holds after)
      (fun command => command.probes = true → mayAsk state.buffer.store) ?_ ⟨sound, rfl, held⟩
      allowed
    intro reached command mayPerform ⟨reachedSound, sameNumber, reachedHolds⟩
    refine ⟨reachedSound.perform settings command,
      (reachedSound.shape_perform settings command).2.trans sameNumber, ?_⟩
    exact kept.performed reached settings command reachedSound (sameNumber.symm ▸ mayPerform)
      reachedHolds
  exact both.2.2

theorem Step.each (step : Step mayAsk before after) (orderly : before.Orderly)
    (kept : Kept mayAsk before.nextStore holds) (each : before.Each holds) : after.Each holds := by
  intro name buffer context held
  have change := orderly.change step held context
  generalize after.load buffer context = state at change
  cases change with
  | kept name buffer context held => exact each name buffer context held
  | shared name buffer context held finalized =>
      exact kept.shared _ (orderly.sound name buffer context held) finalized
        (each name buffer context held)
  | performed name buffer context changed settings commands held allowed =>
      exact kept.anyContext _ changed (kept.performAll (orderly.sound name buffer context held)
        (each name buffer context held) settings allowed)
  | made owner schema visible threshold context changed settings commands silent =>
      refine kept.anyContext _ changed (kept.performAll (ResultState.sound_opened _ _ _ _ _ _)
        (kept.opened owner schema visible threshold context) settings ?_)
      intro command listed probes
      simp [silent command listed] at probes
  | copied source buffer copy context changed owner frozen held copied =>
      exact kept.copied _ owner frozen copy changed (orderly.sound source buffer context held)
        (each source buffer context held) copied

/-! ## Every change keeps order -/

theorem sound_shared {state : ResultState} (sound : state.Sound)
    (finalized : state.buffer.finalized = true) :
    ResultState.Sound { state with store := { state.store with frozen := true } } where
  wide := sound.wide
  plain := sound.plain
  projects := sound.projects
  unshared := fun unfinalized => by simp [finalized] at unfinalized
  pending := fun unfinalized => by simp [finalized] at unfinalized
  missing := fun unfinalized => by simp [finalized] at unfinalized
  counted := sound.counted

theorem sound_copied {state frozen : ResultState} {owner : Option String} {copy : Buffer}
    (sound : state.Sound) (copied : state.shallowCopy owner = some (frozen, copy))
    (context : Option Context) : ResultState.Sound ⟨copy, frozen.store, context⟩ := by
  have finalized := (shallowCopy_eq copied).1
  unfold ResultState.shallowCopy at copied
  split at copied
  · cases copied
    exact ⟨sound.wide, sound.plain, sound.projects, Bool.noConfusion, Bool.noConfusion,
      Bool.noConfusion, fun _ => sound.counted finalized⟩
  · cases copied

theorem unlinked_copied {state frozen : ResultState} {owner : Option String} {copy : Buffer}
    (unlinked : state.Unlinked) (copied : state.shallowCopy owner = some (frozen, copy))
    (context : Option Context) : ResultState.Unlinked ⟨copy, frozen.store, context⟩ := by
  unfold ResultState.shallowCopy at copied
  split at copied
  · cases copied
    exact ⟨unlinked.rows, unlinked.index, fun _ present => by cases present⟩
  · cases copied

theorem kept_sound (mayAsk : Nat → Prop) (fresh : Nat) :
    Kept mayAsk fresh ResultState.Sound where
  anyContext := fun _ _ sound => sound.of_buffer rfl rfl rfl rfl
  performed := fun _ settings command sound _ _ => sound.perform settings command
  opened := fun owner schema visible threshold context =>
    ResultState.sound_opened owner schema visible threshold fresh context
  shared := fun _ sound finalized _ => sound_shared sound finalized
  copied := fun _ _ _ _ context sound _ copied => sound_copied sound copied context

theorem kept_unlinked (mayAsk : Nat → Prop) (fresh : Nat) :
    Kept mayAsk fresh ResultState.Unlinked where
  anyContext := fun _ _ unlinked => ⟨unlinked.rows, unlinked.index, unlinked.lookup⟩
  performed := fun _ settings command sound _ unlinked => unlinked.perform sound settings command
  opened := fun owner schema visible threshold context =>
    ResultState.unlinked_opened owner schema visible threshold fresh context
  shared := fun _ _ _ unlinked => ⟨unlinked.rows, unlinked.index, unlinked.lookup⟩
  copied := fun _ _ _ _ context _ unlinked copied => unlinked_copied unlinked copied context

theorem Step.nextStore_le (step : Step mayAsk before after) :
    before.nextStore ≤ after.nextStore := by
  cases step with
  | made => exact Nat.le_succ _
  | _ => exact Nat.le_refl _

theorem Orderly.numbered_step (orderly : before.Orderly) (step : Step mayAsk before after) :
    after.Each fun state => state.buffer.store < after.nextStore := by
  intro name buffer context held
  have later := step.nextStore_le
  have change := orderly.change step held context
  generalize after.load buffer context = state at change
  have older : ∀ {name : String} {buffer : Buffer}, before.buffers name = some buffer →
      buffer.store < before.nextStore := fun held => orderly.numbered _ _ none held
  cases change with
  | kept name buffer context held => exact Nat.lt_of_lt_of_le (older held) later
  | shared name buffer context held => exact Nat.lt_of_lt_of_le (older held) later
  | performed name buffer context changed settings commands held =>
      have number := orderly.number_performAll held context settings commands
      exact number ▸ Nat.lt_of_lt_of_le (older held) later
  | made owner schema visible threshold context changed settings commands _ fresh =>
      have number :=
        number_opened owner schema visible threshold before.nextStore context settings commands
      exact lt_of_eq_of_lt number fresh
  | copied source buffer copy context changed owner frozen held copied =>
      have number := (shallowCopy_eq copied).2.2
      exact number ▸ Nat.lt_of_lt_of_le (older held) later

theorem Orderly.shared_step (orderly : before.Orderly) (step : Step mayAsk before after)
    {name other : String} {buffer otherBuffer : Buffer} (different : name ≠ other)
    (held : after.buffers name = some buffer) (otherHeld : after.buffers other = some otherBuffer)
    (sharing : buffer.store = otherBuffer.store) : (after.stores buffer.store).frozen = true := by
  -- Who shares a store before the change shares a frozen one.
  have frozenBefore : ∀ {earlier otherEarlier : Buffer}, before.buffers name = some earlier →
      before.buffers other = some otherEarlier → earlier.store = otherEarlier.store →
      (before.stores earlier.store).frozen = true :=
    fun held otherHeld => orderly.shared name other _ _ different held otherHeld
  cases step with
  | followed source content =>
      obtain ⟨present, same⟩ := orderly.follow held
      obtain ⟨otherPresent, _⟩ := orderly.follow otherHeld
      rw [same]
      exact frozenBefore present otherPresent sharing
  | performed own ownBuffer context settings commands ownHeld =>
      have number := orderly.number_performAll ownHeld context settings commands
      have earlier : ∀ {name : String} {buffer : Buffer},
          (before.put own ((before.load ownBuffer context).performAll settings
            commands).2).buffers name = some buffer →
          ∃ earlier, before.buffers name = some earlier ∧ earlier.store = buffer.store := by
        intro name buffer held
        rcases update_eq_some held with ⟨rfl, isOwn⟩ | ⟨_, present⟩
        · cases isOwn
          exact ⟨ownBuffer, ownHeld, number.symm⟩
        · exact ⟨buffer, present, rfl⟩
      obtain ⟨_, present, same⟩ := earlier held
      obtain ⟨_, otherPresent, otherSame⟩ := earlier otherHeld
      have frozen := frozenBefore present otherPresent
        (same.trans (sharing.trans otherSame.symm))
      rw [same] at frozen
      rw [orderly.stores_frozen ownHeld context settings commands frozen]
      exact frozen
  | made own owner schema visible threshold context settings commands =>
      have number :=
        number_opened owner schema visible threshold before.nextStore context settings commands
      have older : ∀ {name : String} {buffer : Buffer}, before.buffers name = some buffer →
          buffer.store < before.nextStore := fun held => orderly.numbered _ _ none held
      rcases update_eq_some held with ⟨isOwn, isNew⟩ | ⟨_, present⟩
      · rcases update_eq_some otherHeld with ⟨alsoOwn, _⟩ | ⟨_, otherPresent⟩
        · exact absurd (isOwn.trans alsoOwn.symm) different
        · cases isNew
          exact absurd (number.symm.trans sharing) (Nat.ne_of_gt (older otherPresent))
      · rcases update_eq_some otherHeld with ⟨_, isNew⟩ | ⟨_, otherPresent⟩
        · cases isNew
          exact absurd (sharing.trans number) (Nat.ne_of_lt (older present))
        · have unchanged :=
            put_stores_other before own (number.symm ▸ Nat.ne_of_lt (older present))
          have frozen := frozenBefore present otherPresent sharing
          rw [← unchanged] at frozen
          exact frozen
  | copied own source sourceBuffer copy context owner frozen sourceHeld copied =>
      obtain ⟨_, frozenStore, number⟩ := shallowCopy_eq copied
      have number : copy.store = sourceBuffer.store := number
      by_cases isSource : buffer.store = sourceBuffer.store
      · have nowFrozen : (Function.update before.stores sourceBuffer.store frozen.store
            buffer.store).frozen = true := by
          rw [isSource, Function.update_self, frozenStore]
        exact nowFrozen
      · have present : before.buffers name = some buffer := by
          rcases update_eq_some held with ⟨_, isCopy⟩ | ⟨_, present⟩
          · cases isCopy
            exact absurd number isSource
          · exact present
        have otherPresent : before.buffers other = some otherBuffer := by
          rcases update_eq_some otherHeld with ⟨_, isCopy⟩ | ⟨_, present⟩
          · cases isCopy
            exact absurd (sharing.trans number) isSource
          · exact present
        have wasFrozen := frozenBefore present otherPresent sharing
        rw [← Function.update_of_ne isSource frozen.store before.stores] at wasFrozen
        exact wasFrozen
  | destroyed own =>
      rcases update_eq_some held with ⟨_, isNone⟩ | ⟨_, present⟩
      · cases isNone
      · rcases update_eq_some otherHeld with ⟨_, isNone⟩ | ⟨_, otherPresent⟩
        · cases isNone
        · exact frozenBefore present otherPresent sharing

theorem Orderly.step (orderly : before.Orderly) (step : Step mayAsk before after) :
    after.Orderly where
  numbered := orderly.numbered_step step
  sound := step.each orderly (kept_sound mayAsk _) orderly.sound
  unlinked := step.each orderly (kept_unlinked mayAsk _) orderly.unlinked
  shared := fun _ _ _ _ different held otherHeld sharing =>
    orderly.shared_step step different held otherHeld sharing

/-! ## Runs -/

/-- A property of buffers with their stores, kept by the changes to come, holds after them. -/
theorem Orderly.steps (orderly : before.Orderly)
    (steps : Relation.ReflTransGen (Step mayAsk) before after)
    (kept : ∀ fresh, before.nextStore ≤ fresh → Kept mayAsk fresh holds)
    (each : before.Each holds) :
    after.Orderly ∧ before.nextStore ≤ after.nextStore ∧ after.Each holds := by
  induction steps with
  | refl => exact ⟨orderly, Nat.le_refl _, each⟩
  | tail _ step ih =>
      obtain ⟨reachedOrderly, later, reachedEach⟩ := ih
      exact ⟨reachedOrderly.step step, Nat.le_trans later step.nextStore_le,
        step.each reachedOrderly (kept _ later) reachedEach⟩

end Holdings

namespace Session

open Holdings

/-- Questions are asked of the buffers of those stores only. -/
def AsksOnly (mayAsk : Nat → Prop) : List Action → Session → Prop
  | [], _ => True
  | action :: rest, session =>
      (∀ name command buffer, action = .command name command → command.probes = true →
        session.buffers.get? name = some buffer → mayAsk buffer.store) ∧
      AsksOnly mayAsk rest (session.step action).state

theorem asksOnly_any (actions : List Action) (session : Session) :
    AsksOnly (fun _ => True) actions session := by
  induction actions generalizing session with
  | nil => trivial
  | cons action rest ih => exact ⟨fun _ _ _ _ _ _ => trivial, ih _⟩

/-- The action asks a question of membership, or prepares for such questions. -/
def asks : Action → Bool
  | .command _ command => command.probes
  | _ => false

theorem asksOnly_of_silent (mayAsk : Nat → Prop) {actions : List Action}
    (silent : ∀ action ∈ actions, asks action = false) (session : Session) :
    AsksOnly mayAsk actions session := by
  induction actions generalizing session with
  | nil => trivial
  | cons action rest ih =>
      refine ⟨?_, ih (fun other listed => silent other (.tail _ listed)) _⟩
      rintro name command buffer rfl probes _
      exact absurd (silent _ List.mem_cons_self) (by simp [asks, probes])

theorem orderly_initial : initial.holdings.Orderly where
  numbered := fun _ _ _ held => by cases held
  sound := fun _ _ _ held => by cases held
  unlinked := fun _ _ _ held => by cases held
  shared := fun _ _ _ _ _ held => by cases held

/-- A property of buffers with their stores, kept by the changes to come, holds after a run. -/
theorem stepAll_each {mayAsk : Nat → Prop} {holds : ResultState → Prop} {session : Session}
    (orderly : session.holdings.Orderly)
    (kept : ∀ fresh, session.nextStore ≤ fresh → Kept mayAsk fresh holds)
    (each : session.holdings.Each holds) {actions : List Action}
    (allowed : AsksOnly mayAsk actions session) :
    (session.stepAll actions).2.holdings.Orderly ∧
      (session.stepAll actions).2.holdings.Each holds := by
  induction actions generalizing session with
  | nil => exact ⟨orderly, each⟩
  | cons action rest ih =>
      obtain ⟨first, others⟩ := allowed
      have steps := session.step_holdings mayAsk
        (fun name buffer held => orderly.sound name buffer _ held) action first
      obtain ⟨stillOrderly, later, stillEach⟩ := orderly.steps steps kept each
      exact ih stillOrderly (fun fresh newer => kept fresh (Nat.le_trans later newer)) stillEach
        others

theorem orderly_stepAll {session : Session} (orderly : session.holdings.Orderly)
    (actions : List Action) : (session.stepAll actions).2.holdings.Orderly :=
  (stepAll_each orderly (fun fresh _ => kept_sound _ fresh) orderly.sound
    (asksOnly_any actions session)).1

end Session

end QueryResult
