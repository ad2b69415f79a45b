import QueryResult.Proofs.Buffer.Probes
import QueryResult.Proofs.Session.Orderly

/-!
# Membership in shared results

Once a result is finalized, everyone who shares its rows reads the same rows,
whatever is done in the session. If no question was asked before, they are also
told what the rows say when they ask about membership, unless the result is
distinct and random access and the window has cut rows from it: the index that
is kept then still has the rows that were cut.
-/

set_option autoImplicit false

namespace QueryResult

namespace Holdings

variable {mayAsk : Nat → Prop} {fresh number visible : Nat} {rows : List Row}

/-- The property holds of the state if it has the store of that number. -/
def OnStore (number : Nat) (holds : ResultState → Prop) (state : ResultState) : Prop :=
  state.buffer.store = number → holds state

theorem kept_onStore {holds : ResultState → Prop}
    (anyContext : ∀ state context, holds state → holds { state with context := context })
    (performed : ∀ state settings command, state.Sound →
      (command.probes = true → mayAsk number) → holds state →
      holds (state.perform settings command).state)
    (opened : fresh = number → ∀ owner schema visible threshold context,
      holds (ResultState.opened owner schema visible threshold fresh context))
    (shared : ∀ state, state.Sound → state.buffer.finalized = true → holds state →
      holds { state with store := { state.store with frozen := true } })
    (copied : ∀ state owner frozen copy context, state.Sound → holds state →
      state.shallowCopy owner = some (frozen, copy) → holds ⟨copy, frozen.store, context⟩) :
    Kept mayAsk fresh (OnStore number holds) where
  anyContext := fun state context held same => anyContext state context (held same)
  performed := by
    intro state settings command sound allowed held same
    have own : state.buffer.store = number :=
      (sound.shape_perform settings command).2.symm.trans same
    exact performed state settings command sound (own ▸ allowed) (held own)
  opened := fun owner schema visible threshold context same =>
    opened same owner schema visible threshold context
  shared := fun state sound finalized held same => shared state sound finalized (held same)
  copied := by
    intro state owner frozen copy context sound held copies same
    have own : state.buffer.store = number := (shallowCopy_eq copies).2.2.symm.trans same
    exact copied state owner frozen copy context sound (held own) copies

theorem shallowCopy_showing {state frozen : ResultState} {owner : Option String} {copy : Buffer}
    (showing : state.Showing visible rows)
    (copied : state.shallowCopy owner = some (frozen, copy)) (context : Option Context) :
    ResultState.Showing visible rows ⟨copy, frozen.store, context⟩ ∧ copy.lookup = none ∧
      frozen.store.index = state.store.index := by
  unfold ResultState.shallowCopy at copied
  split at copied
  · cases copied
    exact ⟨⟨rfl, showing.projection, showing.held⟩, rfl, rfl⟩
  · cases copied

/-- As long as no question is asked of those who share the store, no private index is built. -/
theorem kept_unasked (fresh number : Nat) :
    Kept (fun asked => asked ≠ number) fresh
      (OnStore number fun state => state.buffer.lookup = none) := by
  refine kept_onStore (fun _ _ unbuilt => unbuilt) ?_ (fun _ _ _ _ _ _ => rfl)
    (fun _ _ _ unbuilt => unbuilt) ?_
  · intro state settings command _ unasked unbuilt
    cases probes : command.probes with
    | false => exact ResultState.lookup_perform settings probes unbuilt
    | true => exact absurd rfl (unasked probes)
  · intro state owner frozen copy context _ _ copied
    unfold ResultState.shallowCopy at copied
    split at copied
    · cases copied
      rfl
    · cases copied

theorem kept_showing (older : number < fresh) :
    Kept mayAsk fresh (OnStore number (ResultState.Showing visible rows)) := by
  refine kept_onStore (fun _ _ showing => ⟨showing.finalized, showing.projection, showing.held⟩)
    (fun _ settings command _ _ showing => showing.perform settings command)
    (fun isNew => absurd isNew.symm (Nat.ne_of_lt older))
    (fun _ _ _ showing => ⟨showing.finalized, showing.projection, showing.held⟩) ?_
  intro state owner frozen copy context _ showing copied
  exact (shallowCopy_showing showing copied context).1

theorem kept_answering (older : number < fresh) :
    Kept mayAsk fresh (OnStore number (ResultState.Answering visible rows)) := by
  have sameBuffer : ∀ {state : ResultState}, state.Answering visible rows →
      ∀ frozen context, ResultState.Answering visible rows
        ⟨state.buffer, { state.store with frozen := frozen }, context⟩ :=
    fun answering _ _ => ⟨⟨answering.showing.finalized, answering.showing.projection,
      answering.showing.held⟩, answering.index, answering.lookup⟩
  refine kept_onStore (fun state context answering => sameBuffer answering state.store.frozen context)
    (fun _ settings command sound _ answering => answering.perform sound settings command)
    (fun isNew => absurd isNew.symm (Nat.ne_of_lt older))
    (fun state _ _ answering => sameBuffer answering true state.context) ?_
  intro state owner frozen copy context _ answering copied
  obtain ⟨showing, unbuilt, sameIndex⟩ := shallowCopy_showing answering.showing copied context
  refine ⟨showing, fun index present => answering.index index (sameIndex.symm.trans present),
    fun index present => ?_⟩
  cases unbuilt.symm.trans present

end Holdings

namespace Session

variable {session : Session}

/-- The rows of a store. -/
def rowsOf (session : Session) (number : Nat) : List Row :=
  (session.storeOf number).rows.toList

/-- Whatever happens, everyone who shares the store reads its present rows from the start. -/
def RowsStay (session : Session) (number : Nat) : Prop :=
  ∀ (later : List Action) (name : String) (buffer : Buffer),
    (session.stepAll later).2.buffers.get? name = some buffer → buffer.store = number →
    buffer.closed = false → ∀ rows,
      ResultState.Delivers ((session.stepAll later).2.load buffer.rewound) rows ↔
        rows = session.rowsOf number

/-- Whatever happens, everyone who shares the store and asks for a row is told whether the visible
values of one of its present rows have the same content. -/
def MembershipAgrees (session : Session) (number : Nat) : Prop :=
  ∀ (later : List Action) (name : String) (buffer : Buffer) (row : Row),
    (session.stepAll later).2.buffers.get? name = some buffer → buffer.store = number →
    ∃ found,
      ((session.stepAll later).2.step (.command name (.contains row))).answer =
          .ok (.flag found) ∧
        (found = true ↔
          ∃ held ∈ session.rowsOf number, sameContent (held.take buffer.visible) row = true)

/-! ## A result before it is shared -/

/-- The buffer of that name alone has its store, and both are as in `state`. -/
structure HeldAlone (session : Session) (name : String) (state : ResultState) : Prop where
  orderly : session.holdings.Orderly
  held : session.buffers.get? name = some state.buffer
  stored : session.storeOf state.buffer.store = state.store
  alone : ∀ other buffer, session.buffers.get? other = some buffer →
    buffer.store = state.buffer.store → other = name

variable {name : String} {state : ResultState}

theorem HeldAlone.older (heldAlone : session.HeldAlone name state) :
    state.buffer.store < session.nextStore :=
  heldAlone.orderly.numbered name state.buffer none heldAlone.held

theorem HeldAlone.rowsOf_eq (heldAlone : session.HeldAlone name state) :
    session.rowsOf state.buffer.store = state.rows :=
  congrArg (fun store => store.rows.toList) heldAlone.stored

theorem HeldAlone.each (heldAlone : session.HeldAlone name state) {holds : ResultState → Prop}
    (own : ∀ context, holds ⟨state.buffer, state.store, context⟩) :
    session.holdings.Each (Holdings.OnStore state.buffer.store holds) := by
  intro other buffer context held same
  have isOwn := heldAlone.alone other buffer held same
  subst isOwn
  cases heldAlone.held.symm.trans held
  have stored : session.holdings.stores state.buffer.store = state.store := heldAlone.stored
  rw [Holdings.load, stored]
  exact own context

theorem HeldAlone.rowsStay (heldAlone : session.HeldAlone name state)
    (finalized : state.buffer.finalized = true) : session.RowsStay state.buffer.store := by
  have showing : session.holdings.Each (Holdings.OnStore state.buffer.store
      (ResultState.Showing state.buffer.visible state.rows)) :=
    heldAlone.each fun _ => ⟨finalized, rfl, rfl⟩
  intro later other buffer held same isOpen rows
  obtain ⟨stillOrderly, stillShowing⟩ := stepAll_each heldAlone.orderly
    (fun fresh newer => Holdings.kept_showing (Nat.lt_of_lt_of_le heldAlone.older newer)) showing
    (asksOnly_any later session)
  rw [heldAlone.rowsOf_eq]
  exact (stillShowing other buffer _ held same).delivers (stillOrderly.sound other buffer _ held)
    isOpen rows

theorem HeldAlone.membershipAgrees (heldAlone : session.HeldAlone name state)
    (answering : state.Answering state.buffer.visible state.rows) :
    session.MembershipAgrees state.buffer.store := by
  have each : session.holdings.Each (Holdings.OnStore state.buffer.store
      (ResultState.Answering state.buffer.visible state.rows)) :=
    heldAlone.each fun _ =>
      ⟨⟨answering.showing.finalized, rfl, rfl⟩, answering.index, answering.lookup⟩
  intro later other buffer row held same
  obtain ⟨stillOrderly, stillAnswering⟩ := stepAll_each heldAlone.orderly
    (fun fresh newer => Holdings.kept_answering (Nat.lt_of_lt_of_le heldAlone.older newer)) each
    (asksOnly_any later session)
  have own : ((session.stepAll later).2.load buffer).Answering state.buffer.visible state.rows :=
    stillAnswering other buffer _ held same
  have sound : ((session.stepAll later).2.load buffer).Sound :=
    stillOrderly.sound other buffer _ held
  have projection : buffer.visible = state.buffer.visible := own.showing.projection
  rw [answer_command held, projection, heldAlone.rowsOf_eq]
  exact own.contains sound _ row

theorem HeldAlone.not_membershipAgrees (heldAlone : session.HeldAlone name state)
    {index : ContentIndex} {row : Row} (present : state.store.index = some index)
    (found : index.contains (RowKey.ofRow row) = true)
    (absent : ¬ ∃ held ∈ state.rows,
      sameContent (held.take state.buffer.visible) row = true) :
    ¬ session.MembershipAgrees state.buffer.store := by
  intro agrees
  have asked : (session.load state.buffer).membershipIndex = some index := by
    have held : (session.load state.buffer).store.index = some index :=
      (congrArg RowStore.index heldAlone.stored).trans present
    rw [ResultState.membershipIndex, held]
  obtain ⟨told, answer, toldIff⟩ := agrees [] name state.buffer row heldAlone.held rfl
  have probes : Command.probes (.contains row) = true := rfl
  rw [stepAll, answer_command heldAlone.held,
    ResultState.perform_probe_of_present session.settings probes asked] at answer
  cases answer
  rw [heldAlone.rowsOf_eq] at toldIff
  exact absent (toldIff.mp found)

theorem heldAlone_of_put {before : Holdings} (orderly : session.holdings.Orderly)
    (stores : session.holdings.stores = (before.put name state).stores)
    (buffers : session.holdings.buffers = (before.put name state).buffers)
    (alone : ∀ other buffer, other ≠ name → before.buffers other = some buffer →
      buffer.store ≠ state.buffer.store) :
    session.HeldAlone name state where
  orderly := orderly
  held := (congrFun buffers name).trans (before.put_buffers_self name state)
  stored := (congrFun stores state.buffer.store).trans (before.put_stores_self name state)
  alone := by
    intro other buffer held same
    have held : (before.put name state).buffers other = some buffer := buffers ▸ held
    rcases Holdings.update_eq_some held with ⟨isOwn, _⟩ | ⟨different, present⟩
    · exact isOwn
    · exact absurd same (alone other buffer different present)

/-! ## Finalizing -/

theorem heldAlone_of_finalize {buffer : Buffer} {final : Session} {events : List Event}
    (orderly : session.holdings.Orderly) (held : session.buffers.get? name = some buffer)
    (unfinalized : buffer.finalized = false)
    (accepted : session.step (.command name .finalize) = .accept .done final events) :
    ∃ pending ordered, (session.load buffer).pending? = some pending ∧ ordered.Perm pending ∧
      final.HeldAlone name ((session.load buffer).finished ordered) := by
  have sound : (session.load buffer).Sound := orderly.sound name buffer _ held
  have finalOrderly := orderly_stepAll orderly [.command name .finalize]
  have answer := answer_command held .finalize
  have after := onBuffer_holdings session.settings held sound .finalize
  rw [← step, accepted] at after
  rw [accepted] at answer
  rw [stepAll, accepted] at finalOrderly
  generalize performed : (session.load buffer).perform session.settings .finalize = outcome
    at answer after
  obtain ⟨_, reached, reported⟩ := outcome
  cases answer
  obtain ⟨pending, ordered, gathered, rearranged, rfl⟩ :=
    sound.exists_finished unfinalized (ResultState.finalize_of_perform performed)
  refine ⟨pending, ordered, gathered, rearranged, heldAlone_of_put finalOrderly
    (congrArg Holdings.stores after) (congrArg Holdings.buffers after) ?_⟩
  -- The rows of an unfinalized buffer are not shared.
  intro other otherBuffer different otherHeld same
  have frozen := orderly.shared name other buffer otherBuffer different.symm held otherHeld same.symm
  have unshared := sound.unshared unfinalized
  exact Bool.false_ne_true (unshared.symm.trans frozen)

/-- A new buffer to which only rows were added is plain, and no question was asked of it. -/
theorem plain_of_adds (owner : Option String) (schema : Schema) (visible : Nat) (threshold : UInt64)
    (store : Nat) (context : Option Context) (settings : Settings) {adds : List Command}
    (onlyAdd : ∀ command ∈ adds, ∃ row, command = .add row) :
    let filled := ((ResultState.opened owner schema visible threshold store context).performAll
      settings adds).2
    filled.buffer.distinct = false ∧ filled.buffer.lookup = none ∧
      filled.buffer.finalized = false := by
  refine ResultState.performAll_holds
    (fun after => after.buffer.distinct = false ∧ after.buffer.lookup = none ∧
      after.buffer.finalized = false)
    (fun command => ∃ row, command = .add row) ?_ ⟨rfl, rfl, rfl⟩ onlyAdd
  rintro state command ⟨row, rfl⟩ before
  have effect := state.add_effect row
  rw [ResultState.perform]
  generalize (state.add row).mapAnswer _ = outcome at effect
  cases effect <;> exact before

theorem heldAlone_of_read {source : String} {limit : UInt64} {context : Option String}
    {answer : Answer} {final : Session} {events : List Event} (orderly : session.holdings.Orderly)
    (accepted : session.step (.readBuffer name source limit context) =
      .accept answer final events) :
    ∃ state, final.HeldAlone name state ∧ state.buffer.store = session.nextStore ∧
      state.buffer.finalized = true ∧ state.Answering state.buffer.visible state.rows := by
  have finalOrderly := orderly_stepAll orderly [.readBuffer name source limit context]
  rw [stepAll, accepted] at finalOrderly
  have reading := session.readBuffer_reading name source limit context
  rw [← step, accepted] at reading
  cases reading with
  | made buffer moves adds owner schema visible threshold context target _ _ _ reports held onlyNext
      onlyAdd finalized moved =>
      have sound := (ResultState.sound_opened owner schema visible threshold session.nextStore
        context).performAll session.settings adds
      have number := Holdings.number_opened owner schema visible threshold session.nextStore context
        session.settings adds
      obtain ⟨plain, unbuilt, unfinalized⟩ := plain_of_adds owner schema visible threshold
        session.nextStore context session.settings onlyAdd
      generalize (ResultState.performAll session.settings adds _).2 = filled
        at sound number plain unbuilt unfinalized finalized
      obtain ⟨pending, ordered, gathered, rearranged, rfl⟩ :=
        sound.exists_finished unfinalized finalized
      have stores := congrArg Holdings.stores moved
      have buffers := congrArg Holdings.buffers moved
      refine ⟨filled.finished ordered, heldAlone_of_put finalOrderly stores buffers ?_, number, rfl,
        sound.answering_finished unfinalized unbuilt gathered rearranged ?_⟩
      · intro other otherBuffer _ otherHeld
        have sourceMoved : Holdings.Step (fun _ => True) session.holdings _ :=
          .performed source buffer (session.load buffer).context session.settings moves held
            fun _ _ _ => trivial
        have older := (orderly.step sourceMoved).numbered other otherBuffer none otherHeld
        exact Nat.ne_of_lt (lt_of_lt_of_eq older number.symm)
      · rintro ⟨distinct, _⟩
        exact Bool.false_ne_true (plain.symm.trans distinct)

/-- Once a result is finalized, everyone who shares its rows reads them from then on. If no
question was asked before, everyone is told about membership what the rows say, if and only if the
result is not a distinct and random access one that has lost rows to the window. A result that is
made by reading another one is finalized as it is made. -/
theorem membership_agrees_iff_within_window (before : List Action) :
    let filled := (initial.stepAll before).2
    (∀ (name : String) (buffer : Buffer) (final : Session) (events : List Event),
      filled.buffers.get? name = some buffer → buffer.finalized = false →
      AsksOnly (fun number => number ≠ buffer.store) before initial →
      filled.step (.command name .finalize) = .accept .done final events →
      final.RowsStay buffer.store ∧
        (final.MembershipAgrees buffer.store ↔
          ¬ (buffer.distinct = true ∧ buffer.randomAccess = true ∧
            (final.rowsOf buffer.store).length < buffer.rowCount))) ∧
      ∀ (name source : String) (limit : UInt64) (context : Option String) (answer : Answer)
        (final : Session) (events : List Event),
        filled.step (.readBuffer name source limit context) = .accept answer final events →
        final.RowsStay filled.nextStore ∧ final.MembershipAgrees filled.nextStore := by
  intro filled
  have orderly : filled.holdings.Orderly := orderly_stepAll orderly_initial before
  constructor
  · intro name buffer final events held unfinalized unasked accepted
    have sound : (filled.load buffer).Sound := orderly.sound name buffer _ held
    have unbuilt : buffer.lookup = none := by
      have nothing : initial.holdings.Each
          (Holdings.OnStore buffer.store fun state => state.buffer.lookup = none) :=
        fun _ _ _ held => by cases held
      exact (stepAll_each orderly_initial (fun fresh _ => Holdings.kept_unasked fresh buffer.store)
        nothing unasked).2 name buffer none held rfl
    obtain ⟨pending, ordered, gathered, rearranged, heldAlone⟩ :=
      heldAlone_of_finalize orderly held unfinalized accepted
    have rows : final.rowsOf buffer.store = ((filled.load buffer).finished ordered).rows :=
      heldAlone.rowsOf_eq
    rw [rows]
    refine ⟨heldAlone.rowsStay rfl, fun agrees outlived => ?_, fun within => ?_⟩
    · obtain ⟨index, row, kept, found, absent⟩ :=
        sound.exists_cut unfinalized gathered rearranged outlived
      exact heldAlone.not_membershipAgrees kept found absent agrees
    · exact heldAlone.membershipAgrees
        (sound.answering_finished unfinalized unbuilt gathered rearranged within)
  · intro name source limit context answer final events accepted
    obtain ⟨state, heldAlone, number, finalized, answering⟩ := heldAlone_of_read orderly accepted
    rw [← number]
    exact ⟨heldAlone.rowsStay finalized, heldAlone.membershipAgrees answering⟩

theorem membership_agrees_iff_within_window_sample :
    let before : List Action :=
      [.openBuffer "result" (some ⟨[]⟩) 1 none none, .command "result" (.add [.integer 1]),
        .command "result" (.add [.integer 2]), .command "result" (.setLimit 1)]
    let final := ((initial.stepAll before).2.step (.command "result" .finalize)).state
    final.rowsOf 0 = [[.integer 1]] ∧ final.RowsStay 0 ∧ final.MembershipAgrees 0 := by
  intro before final
  have answered : ((initial.stepAll before).2.step (.command "result" .finalize)).answer =
      .ok .done := by decide +kernel
  have accepted : (initial.stepAll before).2.step (.command "result" .finalize) =
      .accept .done final
        ((initial.stepAll before).2.step (.command "result" .finalize)).events := by
    rw [Outcome.accept, ← answered]
  obtain ⟨buffer, held, number, unfinalized, plain⟩ : ∃ buffer,
      (initial.stepAll before).2.buffers.get? "result" = some buffer ∧ buffer.store = 0 ∧
        buffer.finalized = false ∧ buffer.distinct = false :=
    ⟨_, rfl, rfl, rfl, rfl⟩
  obtain ⟨stay, agrees⟩ := (membership_agrees_iff_within_window before).1 "result" buffer final _
    held unfinalized (asksOnly_of_silent _ (by decide) initial) accepted
  rw [number] at stay agrees
  exact ⟨by decide +kernel, stay, agrees.mpr (by simp [plain])⟩

/-- The index of a distinct and random access result finds a row that the limit has cut. -/
theorem cut_row_found :
    let actions : List Action :=
      [.openBuffer "result" (some ⟨[]⟩) 1 none none, .command "result" .setDistinct,
        .command "result" .setRandomAccess, .command "result" (.add [.integer 1]),
        .command "result" (.add [.integer 2]),
        .command "result" (.setOrder (some ⟨[⟨0, .ascending, .first⟩]⟩)),
        .command "result" (.setLimit 1), .command "result" .finalize]
    let final := (initial.stepAll actions).2
    (∀ action ∈ actions, asks action = false) ∧
      (initial.stepAll actions).1.getLast? = some (.ok .done) ∧
      final.rowsOf 0 = [[.integer 1]] ∧
      (final.step (.command "result" (.contains [.integer 2]))).answer = .ok (.flag true) := by
  decide +kernel

end Session

end QueryResult
