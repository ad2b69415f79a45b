import QueryResult.Proofs.Buffer.Relabeling

/-!
# When a question changes later answers

A question of membership can build the private index, which is never built
again. That is not noticed as long as the rows behind the index stay the same:
if the result is finalized, or is distinct and so has another index as long as
its rows change, or has its index already. In every other state the rows can
still change, and then later answers tell whether the question was asked.
-/

set_option autoImplicit false

namespace QueryResult

namespace ResultState

variable {settings : Settings} {state : ResultState}

/-- Setting the private index is a change that few operations notice. -/
def settingLookup (lookup : Option ContentIndex) : Relabeling where
  lookup := fun _ => lookup
  store := id
  context := id

theorem registersAlike_settingLookup (lookup : Option ContentIndex) (row : Row) :
    state.RegistersAlike (settingLookup lookup) row := by
  unfold RegistersAlike registerCopies
  cases held : state.context with
  | none => simp only [relabel, settingLookup, id, held]
  | some context => simp only [relabel, settingLookup, id, held]

theorem close_withLookup (lookup : Option ContentIndex) :
    (state.withLookup lookup).close = state.close.mapState (withLookup lookup) := by
  simp only [close, apply_ite (Outcome.mapState (withLookup lookup))]
  rfl

/-- Only questions of membership look at the private index. -/
theorem perform_withLookup (lookup : Option ContentIndex) {command : Command}
    (silent : command.probes = false) :
    (state.withLookup lookup).perform settings command =
      (state.perform settings command).mapState (withLookup lookup) := by
  by_cases closes : command = .close
  · subst closes
    rw [perform, close_withLookup]
    exact Outcome.mapState_mapAnswer _ fun _ _ => rfl
  · have registers : ∀ row, command = .add row → state.RegistersAlike (settingLookup lookup) row :=
      fun row _ => registersAlike_settingLookup lookup row
    exact perform_relabel closes silent registers

/-! ## Two runs side by side -/

/-- A state in which questions have been asked and one in which they have not: they are the same,
or the first has an index over rows that stay and the second can still build it. -/
def Alike (asked plain : ResultState) : Prop :=
  asked = plain ∨
    plain.RowsFixed ∧ plain.buffer.lookup = none ∧
      ∃ index, ContentIndex.ofRows plain.buffer.visible plain.rows = .ok index ∧
        asked = plain.withLookup (some index)

theorem Alike.withLookup_none {asked plain : ResultState} (alike : Alike asked plain) :
    asked.withLookup none = plain.withLookup none := by
  rcases alike with rfl | ⟨_, _, index, _, rfl⟩ <;> rfl

theorem lookup_perform (settings : Settings) {command : Command}
    (silent : command.probes = false) (unbuilt : state.buffer.lookup = none) :
    (state.perform settings command).state.buffer.lookup = none := by
  have same : state.withLookup none = state := by
    rw [withLookup, ← unbuilt]
  rw [← same, perform_withLookup none silent]
  rfl

theorem Alike.perform {asked plain : ResultState} (alike : Alike asked plain)
    (settings : Settings) (command : Command) :
    Alike (asked.perform settings command).state (plain.perform settings command).state ∧
      (asked.perform settings command).answer = (plain.perform settings command).answer := by
  rcases alike with rfl | ⟨fixed, unbuilt, index, made, rfl⟩
  · exact ⟨.inl rfl, rfl⟩
  cases probes : command.probes with
  | false =>
      obtain ⟨sameRows, sameVisible, stillFixed⟩ := fixed.perform settings command
      rw [perform_withLookup (some index) probes]
      refine ⟨.inr ⟨stillFixed, lookup_perform settings probes unbuilt, index, ?_, rfl⟩, rfl⟩
      rw [ResultState.rows, sameRows, sameVisible]
      exact made
  | true =>
      cases held : plain.store.index with
      | some own =>
          have plainFound : plain.membershipIndex = some own := by rw [membershipIndex, held]
          have askedFound : (plain.withLookup (some index)).membershipIndex = some own := by
            have still : (plain.withLookup (some index)).store.index = some own := held
            rw [membershipIndex, still]
          rw [perform_probe_of_present settings probes plainFound,
            perform_probe_of_present settings probes askedFound]
          exact ⟨.inr ⟨fixed, unbuilt, index, made, rfl⟩, rfl⟩
      | none =>
          have missing : plain.hasIndex = false := by simp [hasIndex, held, unbuilt]
          have askedFound : (plain.withLookup (some index)).membershipIndex = some index := by
            have still : (plain.withLookup (some index)).store.index = none := held
            rw [membershipIndex, still]
            rfl
          rw [perform_probe_of_missing settings probes missing made,
            perform_probe_of_present settings probes askedFound]
          exact ⟨.inl rfl, rfl⟩

/-! ## Extra questions -/

/-- A question does not change what the rows behind a private index are: the rows stay, or another
index answers while they change, or the private index is there already. -/
def Settled (state : ResultState) : Prop :=
  state.buffer.finalized = true ∨ state.buffer.distinct = true ∨ state.hasIndex = true

theorem Alike.extra {asked plain : ResultState} (alike : Alike asked plain)
    (sound : plain.Sound) (settled : asked.Settled) (settings : Settings) {command : Command}
    (probes : command.probes = true) :
    Alike (asked.perform settings command).state plain := by
  cases present : asked.hasIndex with
  | true =>
      rw [hasIndex_eq] at present
      obtain ⟨index, found⟩ := Option.isSome_iff_exists.mp present
      rw [perform_probe_of_present settings probes found]
      exact alike
  | false =>
      obtain ⟨unindexed, unbuilt⟩ := index_eq_none_of_not_hasIndex present
      rcases alike with rfl | ⟨_, _, index, _, rfl⟩
      · obtain ⟨index, made, _⟩ := sound.ofRows
        rw [perform_probe_of_missing settings probes present made]
        refine .inr ⟨?_, unbuilt, index, made, rfl⟩
        rcases settled with finalized | distinct | contra
        · exact .inl finalized
        · cases finalized : asked.buffer.finalized with
          | true => exact .inl finalized
          | false =>
              exact .inr ⟨distinct, unindexed,
                sound.missing finalized (pending?_of_missing distinct unindexed)⟩
        · simp [present] at contra
      · cases unbuilt

/-- A command of a run into which questions are inserted: one of the run's own, or an extra
question. -/
inductive Call
  | own (command : Command)
  | extra (command : Command) (probes : command.probes = true)

/-- The command of a call. -/
def Call.command : Call → Command
  | .own command => command
  | .extra command _ => command

/-- The run without the extra questions. -/
def ownCommands : List Call → List Command
  | [] => []
  | .own command :: calls => command :: ownCommands calls
  | .extra _ _ :: calls => ownCommands calls

/-- The answers without those of the extra questions. -/
def ownAnswers : List Call → List (Except Fault Answer) → List (Except Fault Answer)
  | .own _ :: calls, answer :: answers => answer :: ownAnswers calls answers
  | .extra _ _ :: calls, _ :: answers => ownAnswers calls answers
  | _, _ => []

/-- Every extra question of a run is asked in a settled state. -/
def ExtrasSettled (settings : Settings) : List Call → ResultState → Prop
  | [], _ => True
  | .own command :: calls, state =>
      ExtrasSettled settings calls (state.perform settings command).state
  | .extra command _ :: calls, state =>
      state.Settled ∧ ExtrasSettled settings calls (state.perform settings command).state

theorem Alike.performAll {asked plain : ResultState} (alike : Alike asked plain)
    (sound : plain.Sound) (settings : Settings) {calls : List Call}
    (settled : ExtrasSettled settings calls asked) :
    ownAnswers calls (asked.performAll settings (calls.map Call.command)).1 =
        (plain.performAll settings (ownCommands calls)).1 ∧
      Alike (asked.performAll settings (calls.map Call.command)).2
        (plain.performAll settings (ownCommands calls)).2 := by
  induction calls generalizing asked plain with
  | nil => exact ⟨rfl, alike⟩
  | cons call calls ih =>
      cases call with
      | own command =>
          obtain ⟨after, sameAnswer⟩ := alike.perform settings command
          obtain ⟨answers, final⟩ := ih after (sound.perform settings command) settled
          refine ⟨?_, final⟩
          simp only [List.map_cons, Call.command, ResultState.performAll, ownAnswers, ownCommands,
            sameAnswer, answers]
      | extra command probes =>
          exact ih (alike.extra sound settled.1 settings probes) sound settled.2

/-! ## Questions that are noticed -/

theorem performAll_withLookup (settings : Settings) (lookup : Option ContentIndex)
    {commands : List Command} (silent : ∀ command ∈ commands, command.probes = false) :
    (state.withLookup lookup).performAll settings commands =
      ((state.performAll settings commands).1,
        (state.performAll settings commands).2.withLookup lookup) := by
  induction commands generalizing state with
  | nil => rfl
  | cons command rest ih =>
      have first : (state.withLookup lookup).perform settings command =
          (state.perform settings command).mapState (withLookup lookup) :=
        perform_withLookup lookup (silent command (by simp))
      simp only [performAll, first, Outcome.mapState,
        ih fun other listed => silent other (.tail _ listed)]

theorem lookup_performAll (settings : Settings) {commands : List Command}
    (silent : ∀ command ∈ commands, command.probes = false) (unbuilt : state.buffer.lookup = none) :
    (state.performAll settings commands).2.buffer.lookup = none :=
  performAll_holds (fun after => after.buffer.lookup = none) (fun command => command.probes = false)
    (fun _ _ silent unbuilt => lookup_perform settings silent unbuilt) unbuilt silent

/-- An index that was built before the rows changed answers from the rows as they were. -/
theorem noticed_of_changed (sound : state.Sound) (settings : Settings)
    (missing : state.hasIndex = false) {command : Command} (probes : command.probes = true)
    {quiet : List Command} (silent : ∀ other ∈ quiet, other.probes = false)
    (unindexed : (state.performAll settings quiet).2.store.index = none) {row : Row}
    (changed :
      (∃ held ∈ state.rows, sameContent (held.take state.buffer.visible) row = true) ↔
      ¬ ∃ held ∈ (state.performAll settings quiet).2.rows,
        sameContent (held.take (state.performAll settings quiet).2.buffer.visible) row = true) :
    (state.performAll settings (quiet ++ [.contains row])).1 ≠
      ((state.perform settings command).state.performAll settings (quiet ++ [.contains row])).1 := by
  have unbuilt := (index_eq_none_of_not_hasIndex missing).2
  obtain ⟨index, made, answers⟩ := sound.ofRows
  rw [perform_probe_of_missing settings probes missing made]
  have stillMissing : (state.performAll settings quiet).2.membershipIndex = none := by
    rw [membershipIndex, unindexed]
    exact lookup_performAll settings silent unbuilt
  obtain ⟨found, answered, foundIff⟩ :=
    contains_of_answers (sound.performAll settings quiet) settings
      (fun index present => by simp [stillMissing] at present) row
  have stale : ((state.performAll settings quiet).2.withLookup (some index)).membershipIndex =
      some index := by
    have still : ((state.performAll settings quiet).2.withLookup (some index)).store.index = none :=
      unindexed
    rw [membershipIndex, still]
    rfl
  have staleAnswer :
      (((state.performAll settings quiet).2.withLookup (some index)).perform settings
        (.contains row)).answer = .ok (.flag (index.contains (RowKey.ofRow row))) := by
    have probes : Command.probes (.contains row) = true := rfl
    rw [perform_probe_of_present settings probes stale]
    rfl
  intro same
  simp only [Outcome.accept, performAll_append, performAll_withLookup settings (some index) silent]
    at same
  have last := List.append_cancel_left same
  simp only [performAll, answered, staleAnswer, List.cons.injEq, Except.ok.injEq,
    Answer.flag.injEq, and_true] at last
  rw [← answers, ← foundIff, last] at changed
  exact (iff_not_self changed).elim

/-- Commands after which a plain result has lost its rows. -/
def emptying : List Command :=
  [.setOrder none, .setOffset 0, .setLimit 0, .finalize]

/-- Commands after which a plain result without rows has one. -/
def filling (row : Row) : List Command :=
  [.setThreshold Buffer.unbounded, .add row]

theorem performAll_emptying (sound : state.Sound) (settings : Settings)
    (unfinalized : state.buffer.finalized = false) (plain : state.buffer.distinct = false) :
    (state.performAll settings emptying).2.rows = [] ∧
      (state.performAll settings emptying).2.store.index = none := by
  have cleared := sound.performAll settings [.setOrder none, .setOffset 0, .setLimit 0]
  have outcome := cleared.finalization settings unfinalized
  have final : (state.performAll settings emptying).2 =
      ((state.performAll settings [.setOrder none, .setOffset 0, .setLimit 0]).2.finalize
        settings).state :=
    state_mapAnswer _ _
  rw [final]
  generalize finalize settings _ = after at outcome
  cases outcome with
  | indexMissing missing =>
      have still : ¬ state.buffer.distinct = true := by simp [plain]
      cases (if_neg still).symm.trans missing
  | unordered pending fault gathered failed => cases failed
  | finished pending ordered events gathered arranged =>
      exact ⟨List.take_zero (l := ordered.drop 0), cleared.keptIndex_plain plain⟩

theorem store_add (fillable : state.Fillable) (plain : state.buffer.distinct = false) {row : Row}
    (wide : state.buffer.visible ≤ row.length)
    (fits : state.store.rows.size + 1 ≤ state.buffer.threshold.toNat) :
    (state.add row).state.store =
      { state.store with rows := state.store.rows.push row.detached } := by
  obtain ⟨registered, context, events, copied⟩ := state.registerCopies_eq row.copies
  unfold add append
  rw [if_neg (by omega), if_neg (by simp [fillable.unfinalized]),
    if_neg (by simp [fillable.unshared]), if_neg (by simp [plain]), if_neg (by omega), copied]
  rfl

theorem performAll_filling (settings : Settings) (fillable : state.Fillable)
    (plain : state.buffer.distinct = false) {row : Row} (wide : state.buffer.visible ≤ row.length)
    (empty : state.rows = []) :
    (state.performAll settings (filling row)).2.rows = [row.detached] ∧
      (state.performAll settings (filling row)).2.store.index = state.store.index := by
  have final : (state.performAll settings (filling row)).2 =
      ((state.perform settings (.setThreshold Buffer.unbounded)).state.add row).state :=
    state_mapAnswer _ _
  have noRows : state.store.rows = #[] := Array.toList_eq_nil_iff.mp empty
  have fits : state.store.rows.size + 1 ≤ Buffer.unbounded.toNat := by
    rw [noRows]
    decide
  have unlimited : (state.perform settings (.setThreshold Buffer.unbounded)).state.Fillable :=
    ⟨fillable.unfinalized, fillable.unshared⟩
  rw [final, rows, store_add unlimited plain wide fits]
  refine ⟨?_, rfl⟩
  rw [Array.toList_push]
  exact congrArg (· ++ [row.detached]) empty

theorem silent_emptying : ∀ other ∈ emptying, other.probes = false := by
  decide

theorem silent_filling (row : Row) : ∀ other ∈ filling row, other.probes = false := by
  simp [filling, Command.probes]

/-- A question asked in a state that is not settled is noticed by some later question. -/
theorem noticed_of_not_settled (sound : state.Sound) (settings : Settings)
    (unsettled : ¬ state.Settled) {command : Command} (probes : command.probes = true) :
    ∃ (quiet : List Command) (row : Row), (∀ other ∈ quiet, other.probes = false) ∧
      (state.performAll settings (quiet ++ [.contains row])).1 ≠
        ((state.perform settings command).state.performAll settings
          (quiet ++ [.contains row])).1 := by
  simp only [Settled, not_or, Bool.not_eq_true] at unsettled
  obtain ⟨unfinalized, plain, missing⟩ := unsettled
  have unindexed := sound.plain plain
  cases held : state.rows with
  | nil =>
      let row : Row := List.replicate state.buffer.visible (.null .boolean)
      have wide : state.buffer.visible ≤ row.length := Nat.le_of_eq (List.length_replicate).symm
      obtain ⟨filled, sameIndex⟩ :=
        performAll_filling settings (sound.fillable unfinalized) plain wide held
      refine ⟨filling row, row.detached.take state.buffer.visible, silent_filling row, ?_⟩
      refine noticed_of_changed sound settings missing probes (silent_filling row)
        (sameIndex.trans unindexed) ?_
      rw [held, filled, (sound.shape_performAll settings _).1]
      simp [sameContent_iff]
  | cons row rest =>
      obtain ⟨emptied, stillUnindexed⟩ := performAll_emptying sound settings unfinalized plain
      refine ⟨emptying, row.take state.buffer.visible, silent_emptying, ?_⟩
      refine noticed_of_changed sound settings missing probes silent_emptying stillUnindexed ?_
      rw [held, emptied]
      simp [sameContent_iff]

/-! ## When questions can be asked -/

/-- Extra questions change nothing but the private index as long as each of them is asked in a
settled state. Asked in any other state, a question changes a later answer of some run. -/
theorem extra_questions_unnoticed_iff_settled (settings : Settings) (name : Option String)
    (schema : Schema) (visible : Nat) (threshold : UInt64) (store : Nat)
    (context : Option Context) :
    let start := opened name schema visible threshold store context
    (∀ calls : List Call, ExtrasSettled settings calls start →
      ownAnswers calls (start.performAll settings (calls.map Call.command)).1 =
          (start.performAll settings (ownCommands calls)).1 ∧
        (start.performAll settings (calls.map Call.command)).2.withLookup none =
          (start.performAll settings (ownCommands calls)).2.withLookup none) ∧
      ∀ (before : List Command) (question : Command), question.probes = true →
        ¬ (start.performAll settings before).2.Settled →
        ∃ (quiet : List Command) (row : Row), (∀ other ∈ quiet, other.probes = false) ∧
          ((start.performAll settings before).2.performAll settings
              (quiet ++ [.contains row])).1 ≠
            (((start.performAll settings before).2.perform settings question).state.performAll
              settings (quiet ++ [.contains row])).1 := by
  intro start
  have sound : start.Sound := sound_opened name schema visible threshold store context
  refine ⟨fun calls settled => ?_, fun before question probes unsettled => ?_⟩
  · have alike : Alike start start := .inl rfl
    obtain ⟨answers, final⟩ := alike.performAll sound settings settled
    exact ⟨answers, final.withLookup_none⟩
  · exact noticed_of_not_settled (sound.performAll settings before) settings unsettled probes

theorem extra_questions_unnoticed_iff_settled_sample :
    let start := opened none ⟨[]⟩ 1 Buffer.unbounded 0 none
    let calls : List Call :=
      [.own .setDistinct, .extra (.contains [.integer 1]) rfl, .own (.add [.integer 1]),
        .own .finalize, .extra .buildIndex rfl, .own (.contains [.integer 1])]
    ExtrasSettled .initial calls start ∧
      ownAnswers calls (start.performAll .initial (calls.map Call.command)).1 =
        (start.performAll .initial (ownCommands calls)).1 ∧
      ¬ (start.performAll .initial []).2.Settled ∧
      ∃ (quiet : List Command) (row : Row), (∀ other ∈ quiet, other.probes = false) ∧
        (start.performAll .initial (quiet ++ [.contains row])).1 ≠
          ((start.perform .initial .buildIndex).state.performAll .initial
            (quiet ++ [.contains row])).1 := by
  intro start calls
  have settled : ExtrasSettled .initial calls start := ⟨.inr (.inl rfl), .inl rfl, trivial⟩
  have unsettled : ¬ (start.performAll .initial []).2.Settled := by
    rintro (finalized | distinct | indexed)
    · cases finalized
    · cases distinct
    · cases indexed
  obtain ⟨unnoticed, noticed⟩ :=
    extra_questions_unnoticed_iff_settled .initial none ⟨[]⟩ 1 Buffer.unbounded 0 none
  exact ⟨settled, (unnoticed calls settled).1, unsettled, noticed [] .buildIndex rfl unsettled⟩

/-- Without rows, the index that a question builds is empty. A row that is added afterwards is held
but not found. -/
theorem question_before_add_noticed :
    let start := opened none ⟨[]⟩ 1 Buffer.unbounded 0 none
    let calls : List Call :=
      [.extra (.contains [.integer 1]) rfl, .own (.add [.integer 1]),
        .own (.contains [.integer 1])]
    (start.performAll .initial (calls.map Call.command)).2.rows = [[.integer 1]] ∧
      ownAnswers calls (start.performAll .initial (calls.map Call.command)).1 =
        [.ok .done, .ok (.flag false)] ∧
      (start.performAll .initial (ownCommands calls)).1 = [.ok .done, .ok (.flag true)] := by
  decide

end ResultState

end QueryResult
