import QueryResult.Proofs.Buffer.Run
import QueryResult.Proofs.Buffer.Scan
import QueryResult.Proofs.Buffer.Window

/-!
# Results that keep duplicates

A result that was never made distinct holds the rows it accepted in the order in
which they came. Finalizing it leaves the window of the stably sorted rows, and
that is what the cursor delivers.
-/

set_option autoImplicit false

namespace QueryResult.ResultState

variable {settings : Settings} {state : ResultState}

/-- The rows accepted so far, as they are kept. -/
def noteAccepted (accepted : List Row) : Command → Except Fault Answer → List Row
  | .add row, .ok _ => accepted ++ [row.detached]
  | _, _ => accepted

/-- The rows that a run of commands accepted, told by the answers. -/
def acceptedRows (commands : List Command) (answers : List (Except Fault Answer)) : List Row :=
  replay noteAccepted [] commands answers

/-- The state holds the given rows and can take more. -/
structure Collecting (state : ResultState) (rows : List Row) : Prop where
  fillable : state.Fillable
  isOpen : state.buffer.closed = false
  plain : state.buffer.distinct = false
  held : state.rows = rows
  counted : state.buffer.rowCount = rows.length
  bounded : rows.length < UInt64.size

theorem collecting_opened (name : Option String) (schema : Schema) (visible : Nat)
    (threshold : UInt64) (store : Nat) (context : Option Context) :
    (opened name schema visible threshold store context).Collecting [] :=
  ⟨⟨rfl, rfl⟩, rfl, rfl, rfl, rfl, by decide⟩

theorem Collecting.push {rows : List Row} (collecting : state.Collecting rows) {row : Row}
    {registered : List Nat} {context : Option Context}
    (fits : state.store.rows.size + 1 ≤ state.buffer.threshold.toNat) :
    Collecting
      { store := { state.store with rows := state.store.rows.push row }
        buffer :=
          { state.buffer with registered := registered, rowCount := state.buffer.rowCount + 1 }
        context := context }
      (rows ++ [row]) where
  fillable := ⟨collecting.fillable.unfinalized, collecting.fillable.unshared⟩
  isOpen := collecting.isOpen
  plain := collecting.plain
  held := by
    have held := collecting.held
    unfold ResultState.rows at held ⊢
    rw [Array.toList_push, held]
  counted := by
    rw [List.length_append, ← collecting.counted]
    rfl
  bounded := by
    have held := congrArg List.length collecting.held
    have below := state.buffer.threshold.toNat_lt_size
    rw [ResultState.rows, Array.length_toList] at held
    rw [List.length_append, List.length_singleton]
    omega

theorem noteAccepted_error (rows : List Row) (command : Command) (fault : Fault) :
    noteAccepted rows command (.error fault) = rows := by
  cases command <;> rfl

theorem noteAccepted_configures (rows : List Row) {command : Command}
    (configures : command.configures = true) (answer : Except Fault Answer) :
    noteAccepted rows command answer = rows := by
  cases command with
  | add row => cases configures
  | _ => rfl

theorem Collecting.perform {rows : List Row} (collecting : state.Collecting rows)
    {command : Command} (prepares : command.Prepares) (notDistinct : command ≠ .setDistinct) :
    (state.perform settings command).state.Collecting
      (noteAccepted rows command (state.perform settings command).answer) := by
  obtain ⟨fillable, isOpen, plain, held, counted, bounded⟩ := collecting
  have unchanged : ∀ buffer : Buffer, buffer.finalized = state.buffer.finalized →
      buffer.closed = state.buffer.closed → buffer.distinct = state.buffer.distinct →
      buffer.rowCount = state.buffer.rowCount →
      Collecting { state with buffer := buffer } rows :=
    fun buffer finalized closed distinct rowCount =>
      ⟨⟨finalized.trans fillable.unfinalized, fillable.unshared⟩, closed.trans isOpen,
        distinct.trans plain, held, rowCount.trans counted, bounded⟩
  have effect := state.perform_effect settings prepares.1
  generalize state.perform settings command = outcome at effect
  cases effect with
  | refused _ fault =>
      rw [Outcome.refuse, noteAccepted_error]
      exact unchanged state.buffer rfl rfl rfl rfl
  | configured _ threshold order offset limit randomAccess configures =>
      rw [noteAccepted_configures rows configures]
      exact unchanged _ rfl rfl rfl rfl
  | madeDistinct => exact absurd rfl notDistinct
  | appended row registered context events _ _ wide fits =>
      exact Collecting.push ⟨fillable, isOpen, plain, held, counted, bounded⟩ fits
  | put row index registered context events _ distinct => simp [plain] at distinct
  | removed row index _ distinct => simp [plain] at distinct
  | answered => exact unchanged state.buffer rfl rfl rfl rfl
  | answeredFromRows => exact unchanged _ rfl rfl rfl rfl
  | keptIndex => exact unchanged state.buffer rfl rfl rfl rfl
  | builtIndex => exact unchanged _ rfl rfl rfl rfl
  | rewound => exact unchanged _ rfl rfl rfl rfl
  | moved => exact unchanged _ rfl rfl rfl rfl
  | closed => exact absurd rfl prepares.2

theorem Collecting.performAll (settings : Settings) {rows : List Row}
    (collecting : state.Collecting rows) {commands : List Command}
    (plain : ∀ command ∈ commands, command.Prepares ∧ command ≠ .setDistinct) :
    (state.performAll settings commands).2.Collecting
      (replay noteAccepted rows commands (state.performAll settings commands).1) :=
  replay_holds Collecting (fun command => command.Prepares ∧ command ≠ .setDistinct)
    (fun _ _ _ allowed collecting => collecting.perform allowed.1 allowed.2) collecting plain

/-- A collected result is finalized to the window of its sorted rows. -/
theorem Collecting.finalize {rows : List Row} (collecting : state.Collecting rows)
    (comparable : ∀ order, state.buffer.order = some order → order.Comparable rows)
    {minimum : Int64} (readable : settings.integer .parallelSortMinRows = .ok minimum) :
    ∃ arranged final events, Arranged state.buffer.order rows arranged ∧
      state.finalize settings = .accept () final events ∧ final.Readable ∧
      final.buffer.position = -1 ∧
      final.rows = window state.buffer.offset state.buffer.limit arranged := by
  have pending : state.pending? = some rows := by
    rw [pending?_of_plain collecting.plain, collecting.held]
  have stillComparable : ∀ order, (state.materialized rows).buffer.order = some order →
      order.Comparable (state.materialized rows).rows := comparable
  obtain ⟨arranged, ordered, events, sorted, accepted, sameWindow⟩ :=
    arrangement_stable stillComparable readable collecting.bounded
  have outcome := finalize_outcome settings collecting.fillable fun other gathered =>
    Option.some.inj (pending.symm.trans gathered) ▸ collecting.counted
  generalize state.finalize settings = finalized at outcome
  cases outcome with
  | indexMissing missing => simp [pending] at missing
  | unordered other fault gathered failed =>
      cases pending.symm.trans gathered
      rw [accepted] at failed
      cases failed
  | finished other otherOrdered reported gathered otherAccepted =>
      cases pending.symm.trans gathered
      obtain ⟨sorting, otherAccepted⟩ := otherAccepted
      rw [accepted] at otherAccepted
      cases otherAccepted
      refine ⟨arranged, _, reported, sorted, rfl, ⟨rfl, collecting.isOpen, ?_⟩, rfl, ?_⟩
      · rfl
      · exact sameWindow

/-- Whatever was configured and added in whatever order, finalizing a result that keeps duplicates
succeeds if its rows can be sorted, and leaves the window of the accepted rows in the order that is
set. A row that is alone need not be comparable with itself. -/
theorem plain_result_is_window {filling settings : Settings} {minimum : Int64}
    {name : Option String} {schema : Schema} {visible : Nat} {threshold : UInt64} {store : Nat}
    {context : Option Context} {commands : List Command} {answers : List (Except Fault Answer)}
    {filled : ResultState}
    (plain : ∀ command ∈ commands, command.Prepares ∧ command ≠ .setDistinct)
    (ran : (opened name schema visible threshold store context).performAll filling commands =
      (answers, filled))
    (columns : ∀ order, filled.buffer.order = some order →
      ∀ row ∈ acceptedRows commands answers, ∀ key ∈ order.keys, key.column < row.length)
    (comparable : ∀ order, filled.buffer.order = some order →
      (acceptedRows commands answers).Pairwise fun left right =>
        ∃ outcome, order.compare left right = .ok outcome)
    (readable : settings.integer .parallelSortMinRows = .ok minimum) :
    ∃ arranged final events,
      (∀ other, Arranged filled.buffer.order (acceptedRows commands answers) other ↔
        other = arranged) ∧
      filled.perform settings .finalize = .accept .done final events ∧
      (∀ rows, Delivers final rows ↔
        rows = window filled.buffer.offset filled.buffer.limit arranged) ∧
      final.buffer.rowCount =
        (window filled.buffer.offset filled.buffer.limit arranged).length := by
  have collecting :=
    (collecting_opened name schema visible threshold store context).performAll filling plain
  rw [ran] at collecting
  obtain ⟨arranged, final, events, sorted, finalized, ready, atStart, held⟩ :=
    collecting.finalize
      (fun order ordering =>
        OrderBy.comparable_of_pairwise (columns order ordering) (comparable order ordering))
      readable
  have delivered := ready.delivers_rows atStart
  rw [held] at delivered
  refine ⟨arranged, final, events, fun other => ⟨fun also => also.unique sorted, ?_⟩, ?_,
    fun rows => ⟨fun also => also.unique delivered, ?_⟩, ?_⟩
  · rintro rfl
    exact sorted
  · rw [ResultState.perform, finalized]
    rfl
  · rintro rfl
    exact delivered
  · rw [ready.counted, ← held, ResultState.rows, Array.length_toList]

theorem plain_result_is_window_sample :
    let commands : List Command :=
      [.setOrder (some ⟨[⟨0, .ascending, .byDirection⟩]⟩), .add [.integer 3, .null .varchar],
        .add [], .add [.integer 1], .setOffset 1, .add [.integer 2], .setLimit 1]
    let run := (opened none ⟨[]⟩ 1 Buffer.unbounded 0 none).performAll .initial commands
    run.2.buffer.order = some ⟨[⟨0, .ascending, .byDirection⟩]⟩ ∧
      acceptedRows commands run.1 =
        [[.integer 3, .null .varchar], [.integer 1], [.integer 2]] ∧
      ∃ arranged final events,
        (∀ other, Arranged run.2.buffer.order (acceptedRows commands run.1) other ↔
          other = arranged) ∧
        run.2.perform .initial .finalize = .accept .done final events ∧
        (∀ rows, Delivers final rows ↔
          rows = window run.2.buffer.offset run.2.buffer.limit arranged) ∧
        final.buffer.rowCount =
          (window run.2.buffer.offset run.2.buffer.limit arranged).length := by
  intro commands run
  have ordering : run.2.buffer.order = some ⟨[⟨0, .ascending, .byDirection⟩]⟩ := by decide
  have rows : acceptedRows commands run.1 =
      [[.integer 3, .null .varchar], [.integer 1], [.integer 2]] := by decide
  refine ⟨ordering, rows, plain_result_is_window (by decide) (Prod.eta run).symm ?_ ?_ rfl⟩
  · intro order found
    cases ordering.symm.trans found
    rw [rows]
    decide
  · intro order found
    cases ordering.symm.trans found
    rw [rows]
    have accepted : ([[.integer 3, .null .varchar], [.integer 1], [.integer 2]] : List Row).Pairwise
        fun left right =>
          (OrderBy.compare ⟨[⟨0, .ascending, .byDirection⟩]⟩ left right).isOk = true := by
      decide
    refine accepted.imp ?_
    intro left right isOk
    cases compared : OrderBy.compare ⟨[⟨0, .ascending, .byDirection⟩]⟩ left right with
    | ok outcome => exact ⟨outcome, rfl⟩
    | error fault => simp [compared, Except.isOk, Except.toBool] at isOk

end QueryResult.ResultState
