import QueryResult.Proofs.Buffer.Transfer

/-!
# Finalizing that fails

Finalizing is refused if the rows cannot be put in order. The rows of a distinct
result are in its store by then. If it is random access they are in its index as
well, and until it is finalized nobody looks at those in the store. If it is not,
the index is gone: no row can be added or removed any more.
-/

set_option autoImplicit false

namespace QueryResult.ResultState

variable {settings : Settings} {state left right : ResultState}

/-- The rows are those of the index, and what else the store holds is not looked at. -/
structure Gathering (state : ResultState) : Prop where
  fillable : state.Fillable
  distinct : state.buffer.distinct = true
  indexed : state.store.index.isSome = true

/-- The state with other rows in its store. -/
def withRows (rows : Array Row) (state : ResultState) : ResultState :=
  { state with store := { state.store with rows := rows } }

theorem Gathering.perform (gathering : state.Gathering) (settings : Settings) {command : Command}
    (unfinalizing : command ≠ .finalize) :
    (state.perform settings command).state.Gathering := by
  obtain ⟨⟨unfinalized, unshared⟩, distinct, indexed⟩ := gathering
  have effect := state.perform_effect settings unfinalizing
  generalize state.perform settings command = outcome at effect
  cases effect with
  | appended row registered context events fillable plain => simp [plain] at distinct
  | madeDistinct => exact ⟨⟨unfinalized, unshared⟩, rfl, rfl⟩
  | put => exact ⟨⟨unfinalized, unshared⟩, distinct, rfl⟩
  | removed => exact ⟨⟨unfinalized, unshared⟩, distinct, rfl⟩
  | _ => exact ⟨⟨unfinalized, unshared⟩, distinct, indexed⟩

/-! ## Rows that are not looked at -/

theorem registerCopies_withRows (rows : Array Row) (copies : List Value) :
    (state.withRows rows).registerCopies copies =
      ((state.registerCopies copies).1.withRows rows, (state.registerCopies copies).2) := by
  unfold registerCopies
  cases held : state.context with
  | none => simp only [withRows, held]
  | some context => simp only [withRows, held]

theorem setDistinct_withRows (rows : Array Row) :
    (state.withRows rows).setDistinct = state.setDistinct.mapState (withRows rows) := by
  simp only [setDistinct, apply_ite (Outcome.mapState (withRows rows))]
  rfl

theorem putDistinct_withRows (rows : Array Row) (row : Row) :
    (state.withRows rows).putDistinct row =
      (state.putDistinct row).mapState (withRows rows) := by
  have sameVisible : (state.withRows rows).buffer.visible = state.buffer.visible := rfl
  have sameIndex : (state.withRows rows).store.index = state.store.index := rfl
  simp only [putDistinct, registerCopies_withRows, sameVisible, sameIndex]
  cases RowKey.ofVisible row.detached state.buffer.visible with
  | error fault => rfl
  | ok key =>
      cases state.store.index with
      | none => rfl
      | some index =>
          simp only [apply_ite (Outcome.mapState (withRows rows))]
          rfl

theorem add_withRows (distinct : state.buffer.distinct = true) (rows : Array Row) (row : Row) :
    (state.withRows rows).add row = (state.add row).mapState (withRows rows) := by
  have stillDistinct : (state.withRows rows).buffer.distinct = true := distinct
  simp only [add, distinct, stillDistinct, if_true, putDistinct_withRows,
    apply_ite (Outcome.mapState (withRows rows))]
  rfl

theorem remove_withRows (rows : Array Row) (row : Row) :
    (state.withRows rows).remove row = (state.remove row).mapState (withRows rows) := by
  have sameIndex : (state.withRows rows).store.index = state.store.index := rfl
  simp only [remove, sameIndex]
  cases state.store.index with
  | none =>
      simp only [apply_ite (Outcome.mapState (withRows rows))]
      rfl
  | some index =>
      simp only [apply_ite (Outcome.mapState (withRows rows))]
      rfl

theorem close_withRows (rows : Array Row) :
    (state.withRows rows).close = state.close.mapState (withRows rows) := by
  simp only [close, apply_ite (Outcome.mapState (withRows rows))]
  rfl

theorem next_unfinalized (unfinalized : state.buffer.finalized = false) :
    state.next = .refuse .readUnfinalized state := by
  rw [next, if_pos (by simp [unfinalized])]

/-- Until it is finalized, a result whose rows are in its index makes nothing of other rows in its
store. -/
theorem Gathering.perform_withRows (gathering : state.Gathering) (settings : Settings)
    (rows : Array Row) {command : Command} (unfinalizing : command ≠ .finalize) :
    (state.withRows rows).perform settings command =
      (state.perform settings command).mapState (withRows rows) := by
  have unfinalized : (state.withRows rows).buffer.finalized = false := gathering.fillable.unfinalized
  cases probes : command.probes with
  | true =>
      obtain ⟨index, held⟩ := Option.isSome_iff_exists.mp gathering.indexed
      have found : state.membershipIndex = some index := by rw [membershipIndex, held]
      have stillFound : (state.withRows rows).membershipIndex = some index := found
      rw [perform_probe_of_present settings probes found,
        perform_probe_of_present settings probes stillFound]
      rfl
  | false =>
      cases command with
      | contains row => cases probes
      | buildIndex => cases probes
      | finalize => exact absurd rfl unfinalizing
      | setDistinct =>
          rw [ResultState.perform, setDistinct_withRows]
          exact Outcome.mapState_mapAnswer _ fun _ _ => rfl
      | add row =>
          rw [ResultState.perform, add_withRows gathering.distinct]
          exact Outcome.mapState_mapAnswer _ fun _ _ => rfl
      | remove row =>
          rw [ResultState.perform, remove_withRows]
          exact Outcome.mapState_mapAnswer _ fun _ _ => rfl
      | close =>
          rw [ResultState.perform, close_withRows]
          exact Outcome.mapState_mapAnswer _ fun _ _ => rfl
      | next =>
          rw [ResultState.perform, ResultState.perform, next_unfinalized unfinalized,
            next_unfinalized gathering.fillable.unfinalized]
          rfl
      | _ => rfl

theorem Gathering.finalize_withRows (gathering : state.Gathering) (settings : Settings)
    (rows : Array Row) : (state.withRows rows).finalize settings = state.finalize settings := by
  obtain ⟨⟨unfinalized, unshared⟩, distinct, indexed⟩ := gathering
  obtain ⟨index, held⟩ := Option.isSome_iff_exists.mp indexed
  have gathered : state.pending? = some index.values := pending?_of_index distinct held
  have stillGathered : (state.withRows rows).pending? = some index.values := by
    have stillDistinct : (state.withRows rows).buffer.distinct = true := distinct
    exact pending?_of_index stillDistinct held
  have stillUnfinalized : (state.withRows rows).buffer.finalized = false := unfinalized
  have stillUnshared : (state.withRows rows).store.frozen = false := unshared
  -- The rows of the index take the place of those in the store before anything looks at them.
  unfold finalize
  rw [if_neg (by simp [stillUnfinalized]), if_neg (by simp [unfinalized]),
    materialize_eq unshared gathered, materialize_eq stillUnshared stillGathered]
  rfl

theorem Gathering.remove (gathering : state.Gathering) (row : Row) :
    (state.remove row).answer = .ok () := by
  obtain ⟨index, held⟩ := Option.isSome_iff_exists.mp gathering.indexed
  rw [ResultState.remove, if_neg (by simp [gathering.distinct]),
    if_neg (by simp [gathering.fillable.unfinalized]),
    if_neg (by simp [gathering.fillable.unshared]), held]
  rfl

/-! ## Two states side by side -/

/-- The states differ at most in rows of the store that are not looked at. -/
def SameButRows (left right : ResultState) : Prop :=
  left = right ∨ right.Gathering ∧ ∃ rows, left = right.withRows rows

theorem SameButRows.refl (state : ResultState) : SameButRows state state :=
  .inl rfl

theorem SameButRows.buffer_eq (same : SameButRows left right) : left.buffer = right.buffer := by
  rcases same with rfl | ⟨_, rows, rfl⟩ <;> rfl

theorem SameButRows.context_eq (same : SameButRows left right) : left.context = right.context := by
  rcases same with rfl | ⟨_, rows, rfl⟩ <;> rfl

theorem SameButRows.hasIndex_eq (same : SameButRows left right) :
    left.hasIndex = right.hasIndex := by
  rcases same with rfl | ⟨_, rows, rfl⟩ <;> rfl

theorem SameButRows.eq_of_finalized (same : SameButRows left right)
    (finalized : right.buffer.finalized = true) : left = right := by
  rcases same with rfl | ⟨gathering, _⟩
  · rfl
  · simp [gathering.fillable.unfinalized] at finalized

theorem SameButRows.eq_of_frozen (same : SameButRows left right)
    (frozen : right.store.frozen = true) : left = right := by
  rcases same with rfl | ⟨gathering, _⟩
  · rfl
  · simp [gathering.fillable.unshared] at frozen

theorem SameButRows.perform (same : SameButRows left right) (settings : Settings)
    (command : Command) :
    (left.perform settings command).answer = (right.perform settings command).answer ∧
      SameButRows (left.perform settings command).state (right.perform settings command).state := by
  rcases same with rfl | ⟨gathering, rows, rfl⟩
  · exact ⟨rfl, .inl rfl⟩
  by_cases finalizing : command = .finalize
  · subst finalizing
    rw [ResultState.perform, ResultState.perform, gathering.finalize_withRows]
    exact ⟨rfl, .inl rfl⟩
  · rw [gathering.perform_withRows settings rows finalizing]
    exact ⟨rfl, .inr ⟨gathering.perform settings finalizing, rows, rfl⟩⟩

theorem SameButRows.anyContext (same : SameButRows left right) (context : Option Context) :
    SameButRows ⟨right.buffer, left.store, context⟩ ⟨right.buffer, right.store, context⟩ := by
  rcases same with rfl | ⟨⟨⟨unfinalized, unshared⟩, distinct, indexed⟩, rows, rfl⟩
  · exact .inl rfl
  · exact .inr ⟨⟨⟨unfinalized, unshared⟩, distinct, indexed⟩, rows, rfl⟩

theorem transfer_unfinalized {source target : ResultState}
    (unfinalized : source.buffer.finalized = false) (count : Nat) :
    transfer count ⟨source, target⟩ =
      if count = 0 then .accept () ⟨source, target⟩ []
      else .refuse .readUnfinalized ⟨source, target⟩ := by
  cases count with
  | zero => rfl
  | succ count =>
      rw [transfer, next_unfinalized unfinalized]
      rfl

theorem SameButRows.readInto (same : SameButRows left right) (settings : Settings) (count : Nat)
    (target : ResultState) :
    (readInto settings count ⟨left, target⟩).answer =
        (readInto settings count ⟨right, target⟩).answer ∧
      (readInto settings count ⟨left, target⟩).state.target =
        (readInto settings count ⟨right, target⟩).state.target ∧
      SameButRows (readInto settings count ⟨left, target⟩).state.source
        (readInto settings count ⟨right, target⟩).state.source := by
  rcases same with rfl | ⟨gathering, rows, rfl⟩
  · exact ⟨rfl, rfl, .inl rfl⟩
  · have unfinalized := gathering.fillable.unfinalized
    have stillUnfinalized : (right.withRows rows).buffer.finalized = false := unfinalized
    unfold ResultState.readInto
    rw [transfer_unfinalized unfinalized, transfer_unfinalized stillUnfinalized]
    split
    · exact ⟨rfl, rfl, .inr ⟨gathering, rows, rfl⟩⟩
    · exact ⟨rfl, rfl, .inr ⟨gathering, rows, rfl⟩⟩

/-! ## What is left after finalizing was refused -/

/-- If finalizing is refused, the result loses the index that its rows are in. -/
def LosesIndex (state : ResultState) : Prop :=
  state.buffer.distinct = true ∧ state.buffer.randomAccess = false ∧
    state.store.index.isSome = true

instance (state : ResultState) : Decidable state.LosesIndex :=
  inferInstanceAs (Decidable (_ ∧ _))

theorem Sound.refused_finalize (sound : state.Sound) (unfinalized : state.buffer.finalized = false)
    {fault : Fault} (refused : (state.finalize settings).answer = .error fault)
    (keeps : ¬ state.LosesIndex) : SameButRows (state.finalize settings).state state := by
  have outcome := sound.finalization settings unfinalized
  generalize state.finalize settings = outcome at outcome refused
  cases outcome with
  | indexMissing => exact .inl rfl
  | finished => cases refused
  | unordered pending fault gathered failed =>
      cases distinct : state.buffer.distinct with
      | false =>
          -- A plain result already has the rows in its store, and has no index to lose.
          have plain : ¬ state.buffer.distinct = true := by simp [distinct]
          have rows : state.rows = pending := Option.some.inj ((if_neg plain).symm.trans gathered)
          refine .inl ?_
          rw [Outcome.refuse, ResultState.materialized, sound.keptIndex_plain distinct, ← sound.plain distinct,
            ← rows, ResultState.rows, Array.toArray_toList]
      | true =>
          obtain ⟨index, held, _⟩ := Option.map_eq_some_iff.mp ((if_pos distinct).symm.trans gathered)
          have indexed : state.store.index.isSome = true := by rw [held]; rfl
          have kept : state.keptIndex = state.store.index :=
            if_neg fun moved => keeps ⟨distinct, moved.2, indexed⟩
          refine .inr ⟨⟨sound.fillable unfinalized, distinct, indexed⟩, pending.toArray, ?_⟩
          rw [Outcome.refuse, ResultState.materialized, kept]
          rfl

/-- The rows of a result that loses its index are in its store, where they are looked at only once
it is finalized. -/
theorem Sound.refused_finalize_loses (sound : state.Sound)
    (unfinalized : state.buffer.finalized = false) {fault : Fault}
    (refused : (state.finalize settings).answer = .error fault) (loses : state.LosesIndex) :
    ∃ index, state.store.index = some index ∧
      (state.finalize settings).state =
        { state with store := ⟨index.values.toArray, none, false⟩ } := by
  obtain ⟨distinct, sequential, indexed⟩ := loses
  obtain ⟨index, held⟩ := Option.isSome_iff_exists.mp indexed
  have gathered : state.pending? = some index.values := pending?_of_index distinct held
  have outcome := sound.finalization settings unfinalized
  generalize state.finalize settings = outcome at outcome refused
  cases outcome with
  | indexMissing missing => cases missing.symm.trans gathered
  | finished => cases refused
  | unordered pending fault alsoGathered failed =>
      cases gathered.symm.trans alsoGathered
      refine ⟨index, held, ?_⟩
      rw [Outcome.refuse, ResultState.materialized, keptIndex, if_pos ⟨distinct, sequential⟩,
        ← sound.unshared unfinalized]

theorem Sound.refused_finalize_buffer (sound : state.Sound)
    (unfinalized : state.buffer.finalized = false) {fault : Fault}
    (refused : (state.finalize settings).answer = .error fault) :
    (state.finalize settings).state.buffer = state.buffer ∧
      (state.finalize settings).state.context = state.context := by
  have outcome := sound.finalization settings unfinalized
  generalize state.finalize settings = outcome at outcome refused
  cases outcome with
  | finished => cases refused
  | _ => exact ⟨rfl, rfl⟩

/-- The result is not finalized and has lost the index that its rows were in. -/
structure Lost (state : ResultState) : Prop where
  fillable : state.Fillable
  distinct : state.buffer.distinct = true
  unindexed : state.store.index = none
  counted : 0 < state.buffer.rowCount

theorem Lost.hasIndex_eq (lost : state.Lost) :
    state.hasIndex = state.buffer.lookup.isSome := by
  rw [hasIndex, lost.unindexed]
  rfl

theorem Lost.remove (lost : state.Lost) (row : Row) :
    state.remove row = .refuse .indexMissing state := by
  rw [ResultState.remove, if_neg (by simp [lost.distinct]),
    if_neg (by simp [lost.fillable.unfinalized]), if_neg (by simp [lost.fillable.unshared]),
    lost.unindexed]

theorem Lost.finalize (lost : state.Lost) (settings : Settings) :
    state.finalize settings = .refuse .indexMissing state := by
  have missing : state.pending? = none := pending?_of_missing lost.distinct lost.unindexed
  rw [ResultState.finalize, if_neg (by simp [lost.fillable.unfinalized]),
    materialize_indexMissing lost.fillable.unshared missing, Outcome.andThen_refuse]

theorem Lost.perform (lost : state.Lost) (settings : Settings) (command : Command) :
    (state.perform settings command).state.Lost := by
  by_cases finalizing : command = .finalize
  · subst finalizing
    rw [ResultState.perform, lost.finalize settings]
    exact lost
  · obtain ⟨⟨unfinalized, unshared⟩, distinct, unindexed, counted⟩ := lost
    have effect := state.perform_effect settings finalizing
    generalize state.perform settings command = outcome at effect
    cases effect with
    -- Only an empty result can be made distinct, which would give it a new index.
    | madeDistinct noRows => omega
    | appended row registered context events fillable plain => simp [plain] at distinct
    | put row index registered context events fillable _ _ held => simp [unindexed] at held
    | removed row index fillable _ held => simp [unindexed] at held
    | _ => exact ⟨⟨unfinalized, unshared⟩, distinct, unindexed, counted⟩

/-- Once it has lost its index, a result can never be finalized. -/
theorem Lost.performAll_finalize (lost : state.Lost) (settings : Settings)
    (commands : List Command) :
    (((state.performAll settings commands).2).perform settings .finalize).answer =
      .error .indexMissing := by
  have stillLost : (state.performAll settings commands).2.Lost :=
    performAll_holds Lost (fun _ => True) (fun _ command _ lost => lost.perform settings command)
      lost fun _ _ => trivial
  rw [ResultState.perform, stillLost.finalize settings]
  rfl

theorem Sound.lost_of_refused (sound : state.Sound) (unfinalized : state.buffer.finalized = false)
    {fault : Fault} (refused : (state.finalize settings).answer = .error fault)
    (loses : state.LosesIndex) : (state.finalize settings).state.Lost := by
  obtain ⟨distinct, sequential, indexed⟩ := loses
  have stillSound : (state.finalize settings).state.Sound := by
    have performed := sound.perform settings .finalize
    rwa [ResultState.perform, state_mapAnswer] at performed
  obtain ⟨index, _, after⟩ :=
    sound.refused_finalize_loses unfinalized refused ⟨distinct, sequential, indexed⟩
  rw [after] at stillSound ⊢
  refine ⟨⟨unfinalized, rfl⟩, distinct, rfl, stillSound.missing unfinalized ?_⟩
  exact pending?_of_missing distinct rfl

end QueryResult.ResultState
