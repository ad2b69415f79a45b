import QueryResult.Proofs.Buffer.Cursor
import QueryResult.Proofs.Buffer.Transfer

/-!
# What reading a result takes from it

The rows that are read are those ahead of the cursor, up to the number that was
asked for, with their visible columns. Whether the cursor comes to stand on the
last of them or behind all rows is decided by which of the two ends the reading:
the cursor is not tried again once the number is reached.
-/

set_option autoImplicit false

namespace QueryResult.ResultState

variable {settings : Settings} {state : ResultState}

/-! ## The result that takes the rows -/

/-- The result is a plain one that is not finalized, and nothing is set that would make finalizing
it change its rows. -/
structure Taking (state : ResultState) : Prop where
  fillable : state.Fillable
  plain : state.buffer.distinct = false
  unordered : state.buffer.order = none
  offset : state.buffer.offset = 0
  unlimited : state.buffer.limit < 0

theorem taking_opened (name : Option String) (schema : Schema) (visible : Nat)
    (threshold : UInt64) (store : Nat) (context : Option Context) :
    (opened name schema visible threshold store context).Taking :=
  ⟨⟨rfl, rfl⟩, rfl, rfl, rfl, (by decide : (-1 : Int64) < 0)⟩

/-- The state with more rows at the end of its store. -/
def extended (rows : List Row) (state : ResultState) : ResultState :=
  { state with
    store := { state.store with rows := state.store.rows ++ rows.toArray }
    buffer := { state.buffer with rowCount := state.buffer.rowCount + rows.length } }

theorem extended_nil (state : ResultState) : state.extended [] = state := by
  simp [extended]

theorem extended_extended (state : ResultState) (rows more : List Row) :
    (state.extended rows).extended more = state.extended (rows ++ more) := by
  simp [extended, Nat.add_assoc]

theorem size_extended (state : ResultState) (rows : List Row) :
    (state.extended rows).store.rows.size = state.store.rows.size + rows.length := by
  simp [extended]

theorem Taking.extended (taking : state.Taking) (rows : List Row) : (state.extended rows).Taking :=
  ⟨⟨taking.fillable.unfinalized, taking.fillable.unshared⟩, taking.plain, taking.unordered,
    taking.offset, taking.unlimited⟩

theorem Taking.add (taking : state.Taking) {row : Row} (unlinked : row.Unlinked)
    (wide : state.buffer.visible ≤ row.length) :
    state.add row =
      if state.buffer.threshold.toNat < state.store.rows.size + 1 then
        .refuse (.overThreshold state.buffer.threshold) state
      else .accept () (state.extended [row]) [] := by
  rw [ResultState.add, if_neg (by omega), if_neg (by simp [taking.fillable.unfinalized]),
    if_neg (by simp [taking.fillable.unshared]), if_neg (by simp [taking.plain]), append,
    unlinked.copies_eq_nil, unlinked.detached_eq, registerCopies_nil]
  split
  · rfl
  · simp [ResultState.extended]

theorem Taking.finalize (taking : state.Taking) (settings : Settings) :
    ∃ events, state.finalize settings =
      .accept () { state with buffer := { state.buffer.rewound with finalized := true } } events := by
  refine ⟨[.finalized state.buffer.rowCount state.buffer.rowCount], ?_⟩
  simp only [ResultState.finalize, taking.fillable.unfinalized, materialize, taking.plain, sortRows,
    taking.unordered, applyOffset, taking.offset, applyLimit, taking.unlimited, if_true,
    Outcome.andThen_accept, Bool.false_eq_true, if_false, Bool.not_false, List.nil_append]

/-! ## Moving rows -/

/-- The rows of the result with their visible columns only. -/
def projected (state : ResultState) : List Row :=
  state.rows.map (List.take state.buffer.visible)

/-- The state with its cursor elsewhere. -/
def placed (position : Int) (current : Option Nat) (state : ResultState) : ResultState :=
  { state with buffer := { state.buffer with position := position, current := current } }

theorem length_projected (state : ResultState) : state.projected.length = state.store.rows.size :=
  List.length_map ..

/-- The rows of the source can be read into the target. -/
structure Transfer.Ready (pair : Transfer) : Prop where
  unlinked : ∀ row ∈ pair.source.rows, row.Unlinked
  wide : ∀ row ∈ pair.source.rows, pair.source.buffer.visible ≤ row.length
  taking : pair.target.Taking
  alike : pair.target.buffer.visible = pair.source.buffer.visible

section Moving

variable {pair : Transfer} {source target after : ResultState} {count : Nat} {row : Row}

theorem Transfer.Ready.moved (ready : Transfer.Ready ⟨source, target⟩) (position : Int)
    (current : Option Nat) (rows : List Row) :
    Transfer.Ready ⟨source.placed position current, target.extended rows⟩ :=
  ⟨ready.unlinked, ready.wide, ready.taking.extended rows, ready.alike⟩

theorem Transfer.Ready.add (ready : pair.Ready) (held : row ∈ pair.source.rows) :
    pair.target.add (row.take pair.source.buffer.visible) =
      if pair.target.buffer.threshold.toNat < pair.target.store.rows.size + 1 then
        .refuse (.overThreshold pair.target.buffer.threshold) pair.target
      else .accept () (pair.target.extended [row.take pair.source.buffer.visible]) [] := by
  refine ready.taking.add ((ready.unlinked row held).take _) ?_
  rw [ready.alike, List.length_take]
  have wide := ready.wide row held
  omega

theorem transfer_ended (moved : pair.source.next = .accept false after []) (count : Nat) :
    transfer (count + 1) pair = .accept () { pair with source := after } [] := by
  simp only [transfer, moved, Outcome.accept]

theorem transfer_refused (moved : pair.source.next = .accept true after [])
    (shown : after.currentRow = some row) {fault : Fault}
    (refused : pair.target.add (row.take pair.source.buffer.visible) = .refuse fault target)
    (count : Nat) : transfer (count + 1) pair = .refuse fault ⟨after, target⟩ := by
  simp only [transfer, moved, Outcome.accept, shown, refused, Outcome.refuse]

theorem transfer_row (moved : pair.source.next = .accept true after [])
    (shown : after.currentRow = some row)
    (added : pair.target.add (row.take pair.source.buffer.visible) = .accept () target [])
    (count : Nat) : transfer (count + 1) pair = transfer count ⟨after, target⟩ := by
  simp only [transfer, moved, Outcome.accept, shown, added, List.nil_append]

/-- The first row to be read is the one behind those that the cursor has passed. -/
theorem take_projected (source : ResultState) {consumed : Nat}
    (held : consumed < source.store.rows.size) (count : Nat) :
    (source.projected.drop consumed).take (count + 1) =
      source.store.rows[consumed].take source.buffer.visible ::
        (source.projected.drop (consumed + 1)).take count := by
  have within : consumed < source.projected.length := by rwa [length_projected]
  rw [List.drop_eq_getElem_cons within, List.take_succ_cons]
  simp [projected, rows]

theorem take_projected_end (source : ResultState) {consumed : Nat}
    (beyond : source.store.rows.size ≤ consumed) (count : Nat) :
    (source.projected.drop consumed).take count = [] := by
  rw [List.drop_eq_nil_of_le (by rwa [length_projected]), List.take_nil]

/-- Trying an open cursor so many times reads so many rows, or all that are left. The cursor comes
behind the last row only if it is tried there. If the rows are too many for the target, the first
one too many is refused. -/
theorem Readable.transfer (readable : source.Readable) {consumed : Nat}
    (position : source.buffer.position = (consumed : Int) - 1)
    (within : consumed ≤ source.store.rows.size + 1) (ready : Transfer.Ready ⟨source, target⟩)
    (fitted : target.store.rows.size ≤ target.buffer.threshold.toNat) (count : Nat) :
    let taken := (source.projected.drop consumed).take count
    (target.store.rows.size + taken.length ≤ target.buffer.threshold.toNat →
      ∃ current, ResultState.transfer count ⟨source, target⟩ =
        .accept ()
          ⟨source.placed ((min (consumed + count) (source.store.rows.size + 1) : Nat) - 1) current,
            target.extended taken⟩ []) ∧
    (target.buffer.threshold.toNat < target.store.rows.size + taken.length →
      (ResultState.transfer count ⟨source, target⟩).answer =
        .error (.overThreshold target.buffer.threshold)) := by
  induction count generalizing source target consumed with
  | zero =>
      dsimp only
      rw [List.take_zero, extended_nil, Nat.add_zero, Nat.min_eq_left within, ← position]
      exact ⟨fun _ => ⟨source.buffer.current, rfl⟩,
        fun tooMany => absurd fitted (Nat.not_le.mpr tooMany)⟩
  | succ count ih =>
      dsimp only
      rcases Nat.lt_trichotomy consumed source.store.rows.size with held | atEnd | behind
      · rw [take_projected source held count]
        have listed : source.store.rows[consumed] ∈ source.rows :=
          Array.mem_toList_iff.mpr (Array.getElem_mem held)
        have moved := readable.next_row position held
        have shown : (source.advancedTo (some consumed)).currentRow =
            some source.store.rows[consumed] := Array.getElem?_eq_getElem held
        have added := ready.add listed
        dsimp only at added
        by_cases full : target.buffer.threshold.toNat < target.store.rows.size + 1
        · rw [if_pos full] at added
          refine ⟨fun fits => ?_, fun _ => ?_⟩
          · rw [List.length_cons] at fits
            omega
          · rw [transfer_refused moved shown added]
            rfl
        · rw [if_neg full] at added
          rw [transfer_row moved shown added]
          have nextPosition : (source.advancedTo (some consumed)).buffer.position =
              ((consumed + 1 : Nat) : Int) - 1 := by
            simp only [advancedTo]
            omega
          have rest := ih (readable.advance (some consumed)) nextPosition (Nat.succ_le_succ held.le)
            (ready.moved (source.buffer.position + 1) (some consumed)
              [source.store.rows[consumed].take source.buffer.visible])
            (by rw [size_extended]; exact Nat.not_lt.mp full)
          obtain ⟨reads, refuses⟩ := rest
          rw [size_extended, List.length_singleton, Nat.add_assoc, Nat.add_comm 1] at reads refuses
          refine ⟨fun fits => ?_, refuses⟩
          obtain ⟨current, read⟩ := reads fits
          refine ⟨current, read.trans ?_⟩
          rw [extended_extended, Nat.add_assoc, Nat.add_comm 1]
          rfl
      · rw [take_projected_end source atEnd.ge, extended_nil,
          transfer_ended (readable.next_end (by omega))]
        refine ⟨fun _ => ⟨none, ?_⟩, fun tooMany => absurd fitted (Nat.not_le.mpr tooMany)⟩
        have reached : (min (consumed + (count + 1)) (source.store.rows.size + 1) : Nat) - (1 : Int) =
            source.buffer.position + 1 := by omega
        rw [reached]
        rfl
      · rw [take_projected_end source behind.le, extended_nil,
          transfer_ended (readable.next_behind (by omega))]
        refine ⟨fun _ => ⟨source.buffer.current, ?_⟩,
          fun tooMany => absurd fitted (Nat.not_le.mpr tooMany)⟩
        have reached : (min (consumed + (count + 1)) (source.store.rows.size + 1) : Nat) - (1 : Int) =
            source.buffer.position := by omega
        rw [reached]
        rfl

end Moving

/-! ## What is read -/

/-- The number of rows ahead of the cursor. There are none once the buffer is closed. -/
def remaining (state : ResultState) : Nat :=
  if state.buffer.closed then 0 else state.rows.length - (state.buffer.position + 1).toNat

/-- The number of rows that are due when at most `limit` are asked for, zero meaning no limit. -/
def due (limit : UInt64) (state : ResultState) : Nat :=
  if limit = 0 then state.remaining else min limit.toNat state.remaining

/-- The visible columns of the rows behind the position of the cursor. -/
def ahead (state : ResultState) : List Row :=
  state.projected.drop (state.buffer.position + 1).toNat

/-- The rows that are due, with their visible columns. -/
def portion (limit : UInt64) (state : ResultState) : List Row :=
  state.ahead.take (state.due limit)

/-- Where the cursor stands when the rows that are due have been read: on the last of them if no
more were asked for, else behind all rows. The cursor of a closed result stays. -/
def positionAfter (limit : UInt64) (state : ResultState) : Int :=
  if state.buffer.closed then state.buffer.position
  else if limit ≠ 0 ∧ limit.toNat = state.due limit then state.buffer.position + state.due limit
  else state.rows.length

theorem due_le_remaining (limit : UInt64) (state : ResultState) :
    state.due limit ≤ state.remaining := by
  unfold due
  split
  · exact Nat.le_refl _
  · exact Nat.min_le_right _ _

theorem length_portion (limit : UInt64) (state : ResultState) :
    (state.portion limit).length = state.due limit := by
  have bounded := state.due_le_remaining limit
  have size : state.rows.length = state.store.rows.size := Array.length_toList
  rw [portion, ahead, List.length_take, List.length_drop, length_projected]
  unfold remaining at bounded
  split at bounded <;> omega

/-- The result finalized as it is, with its cursor before the first row. -/
def concluded (state : ResultState) : ResultState :=
  { state with buffer := { state.buffer.rewound with finalized := true } }

section Reading

variable {source target : ResultState} {limit : UInt64}

theorem Readable.attempts_eq (readable : source.Readable) (positioned : source.buffer.Positioned)
    (limit : UInt64) :
    source.attempts limit =
      if limit = 0 then source.remaining + 1 else min limit.toNat (source.remaining + 1) := by
  have counted := readable.counted
  have low := positioned.low
  have size : source.rows.length = source.store.rows.size := Array.length_toList
  have ahead : source.rowsAhead = source.remaining := by
    rw [rowsAhead, remaining, readable.isOpen, if_neg Bool.false_ne_true]
    omega
  rw [attempts, ahead]

theorem length_ahead (isOpen : source.buffer.closed = false) :
    source.ahead.length = source.remaining := by
  rw [ahead, List.length_drop, length_projected, remaining, isOpen, if_neg Bool.false_ne_true, rows,
    Array.length_toList]

theorem Readable.take_attempts (readable : source.Readable)
    (positioned : source.buffer.Positioned) (limit : UInt64) :
    source.ahead.take (source.attempts limit) = source.portion limit := by
  rw [portion, List.take_eq_take_iff, length_ahead readable.isOpen,
    readable.attempts_eq positioned, due]
  split <;> omega

theorem Readable.position_attempts (readable : source.Readable)
    (positioned : source.buffer.Positioned) (limit : UInt64) :
    ((min ((source.buffer.position + 1).toNat + source.attempts limit)
      (source.store.rows.size + 1) : Nat) : Int) - 1 = source.positionAfter limit := by
  have counted := readable.counted
  have low := positioned.low
  have high := positioned.high
  have size : source.rows.length = source.store.rows.size := Array.length_toList
  have rest : source.remaining = source.store.rows.size - (source.buffer.position + 1).toNat := by
    rw [remaining, readable.isOpen, if_neg Bool.false_ne_true, size]
  rw [readable.attempts_eq positioned, positionAfter, readable.isOpen, if_neg Bool.false_ne_true,
    due, rest, size]
  by_cases unlimited : limit = 0
  · simp only [unlimited, if_true, ne_eq, not_true_eq_false, false_and, if_false]
    omega
  · have positive : limit.toNat ≠ 0 := fun zero => unlimited (UInt64.toNat_inj.mp zero)
    simp only [unlimited, if_false, ne_eq, not_false_eq_true, true_and]
    split <;> omega

theorem transfer_closed (finalized : source.buffer.finalized = true)
    (closed : source.buffer.closed = true) (target : ResultState) (count : Nat) :
    transfer count ⟨source, target⟩ = .accept () ⟨source, target⟩ [] := by
  cases count with
  | zero => rfl
  | succ count => exact transfer_ended (next_of_closed finalized closed) count

/-- The rows that are due are read, if they are not too many for the target. -/
theorem Sound.transfer (sound : source.Sound) (positioned : source.buffer.Positioned)
    (finalized : source.buffer.finalized = true) (ready : Transfer.Ready ⟨source, target⟩)
    (fitted : target.store.rows.size ≤ target.buffer.threshold.toNat) (limit : UInt64) :
    (target.store.rows.size + source.due limit ≤ target.buffer.threshold.toNat →
      ∃ current, ResultState.transfer (source.attempts limit) ⟨source, target⟩ =
        .accept ()
          ⟨source.placed (source.positionAfter limit) current,
            target.extended (source.portion limit)⟩ []) ∧
    (target.buffer.threshold.toNat < target.store.rows.size + source.due limit →
      (ResultState.transfer (source.attempts limit) ⟨source, target⟩).answer =
        .error (.overThreshold target.buffer.threshold)) := by
  cases closed : source.buffer.closed with
  | true =>
      have nothing : source.due limit = 0 := by
        have bounded := source.due_le_remaining limit
        rw [remaining, if_pos closed] at bounded
        exact Nat.le_zero.mp bounded
      rw [transfer_closed finalized closed, portion, nothing, List.take_zero, extended_nil,
        positionAfter, if_pos closed]
      exact ⟨fun _ => ⟨source.buffer.current, rfl⟩,
        fun tooMany => absurd fitted (Nat.not_le.mpr tooMany)⟩
  | false =>
      have readable := sound.readable finalized closed
      have low := positioned.low
      have high := positioned.high
      have counted := readable.counted
      have reads := readable.transfer
        (show source.buffer.position = ((source.buffer.position + 1).toNat : Int) - 1 by omega)
        (by omega) ready fitted (source.attempts limit)
      dsimp only at reads
      rwa [← ahead, readable.take_attempts positioned, length_portion,
        readable.position_attempts positioned] at reads

theorem Sound.readInto (sound : source.Sound) (positioned : source.buffer.Positioned)
    (finalized : source.buffer.finalized = true) (ready : Transfer.Ready ⟨source, target⟩)
    (fitted : target.store.rows.size ≤ target.buffer.threshold.toNat) (limit : UInt64)
    (settings : Settings) :
    (target.store.rows.size + source.due limit ≤ target.buffer.threshold.toNat →
      ∃ current events,
        ResultState.readInto settings (source.attempts limit) ⟨source, target⟩ =
          .accept ()
            ⟨source.placed (source.positionAfter limit) current,
              (target.extended (source.portion limit)).concluded⟩ events) ∧
    (target.buffer.threshold.toNat < target.store.rows.size + source.due limit →
      (ResultState.readInto settings (source.attempts limit) ⟨source, target⟩).answer =
        .error (.overThreshold target.buffer.threshold)) := by
  obtain ⟨reads, refuses⟩ := sound.transfer positioned finalized ready fitted limit
  constructor
  · intro fits
    obtain ⟨current, read⟩ := reads fits
    obtain ⟨events, finalizes⟩ :=
      (ready.taking.extended (source.portion limit)).finalize settings
    refine ⟨current, events, ?_⟩
    rw [ResultState.readInto, read, Outcome.andThen_accept, finalizes]
    rfl
  · intro tooMany
    have refused := refuses tooMany
    unfold ResultState.readInto
    generalize ResultState.transfer (source.attempts limit) ⟨source, target⟩ = outcome at refused
    obtain ⟨answer, pair, events⟩ := outcome
    cases refused
    rfl

/-! ## What is left -/

theorem portion_of_limited (isOpen : source.buffer.closed = false) (limited : limit ≠ 0) :
    source.portion limit = source.ahead.take limit.toNat := by
  rw [portion, List.take_eq_take_iff, length_ahead isOpen, due, if_neg limited]
  omega

/-- What one reading leaves ahead of the cursor begins behind the rows that it read. -/
theorem ahead_placed (isOpen : source.buffer.closed = false)
    (positioned : source.buffer.Positioned) (limited : limit ≠ 0) (current : Option Nat) :
    (source.placed (source.positionAfter limit) current).ahead = source.ahead.drop limit.toNat := by
  have low := positioned.low
  have size : source.rows.length = source.store.rows.size := Array.length_toList
  have sameRows : (source.placed (source.positionAfter limit) current).projected =
      source.projected := rfl
  have position : (source.placed (source.positionAfter limit) current).buffer.position =
      source.positionAfter limit := rfl
  rw [ahead, sameRows, position, positionAfter, isOpen, if_neg Bool.false_ne_true]
  by_cases reached : limit.toNat = source.due limit
  · rw [if_pos ⟨limited, reached⟩, ← reached, ahead, List.drop_drop]
    congr 1
    omega
  · have short : source.remaining < limit.toNat := by
      rw [due, if_neg limited] at reached
      omega
    rw [if_neg fun both => reached both.2, List.drop_eq_nil_of_le, List.drop_eq_nil_of_le]
    · rw [length_ahead isOpen]
      exact short.le
    · rw [length_projected]
      omega

end Reading

end QueryResult.ResultState
