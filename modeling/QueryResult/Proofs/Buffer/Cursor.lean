import QueryResult.Proofs.Buffer.Membership
import QueryResult.Proofs.Buffer.FailedFinalization

/-!
# The cursor

Position, current row and row count of a buffer are changed by different
operations, and they fit each other in every state. Where the cursor of an open
result stands is decided by how often it was moved since it was last put before
the first row.
-/

set_option autoImplicit false

namespace QueryResult

/-- The cursor stands on the row at that place. -/
structure Buffer.StandsOn (buffer : Buffer) (place : Nat) : Prop where
  finalized : buffer.finalized = true
  isOpen : buffer.closed = false
  position : buffer.position = place
  within : place < buffer.rowCount

/-- Position and current row fit each other and the number of rows. -/
structure Buffer.Positioned (buffer : Buffer) : Prop where
  unread : buffer.finalized = false → buffer.position = -1
  low : -1 ≤ buffer.position
  high : buffer.position ≤ buffer.rowCount
  current : ∀ place, buffer.current = some place ↔ buffer.StandsOn place

/-- Since the cursor was put before the first row, it was to be moved that many times. -/
def Buffer.Moved (buffer : Buffer) (times : Nat) : Prop :=
  buffer.finalized = true → buffer.closed = false →
    buffer.position = (min times (buffer.rowCount + 1) : Nat) - 1

/-- How often the cursor was to be moved since it was put before the first row, after another
command. -/
def Command.movesAfter (times : Nat) : Command → Nat
  | .next => times + 1
  | .rewind | .finalize => 0
  | _ => times

namespace Buffer

variable {buffer other : Buffer} {times : Nat}

theorem positioned_of_unread (position : buffer.position = -1) (current : buffer.current = none) :
    buffer.Positioned where
  unread := fun _ => position
  low := Int.le_of_eq position.symm
  high := by omega
  current := by
    intro place
    rw [current]
    constructor
    · intro found
      cases found
    · intro standsOn
      have there := standsOn.position
      omega

theorem positioned_on_row {place : Nat} (standsOn : buffer.StandsOn place)
    (current : buffer.current = some place) : buffer.Positioned where
  unread := fun unfinalized => by simp [standsOn.finalized] at unfinalized
  low := by
    have there := standsOn.position
    omega
  high := by
    have there := standsOn.position
    have within := standsOn.within
    omega
  current := by
    intro other
    rw [current, Option.some.injEq]
    constructor
    · rintro rfl
      exact standsOn
    · intro alsoThere
      exact Int.ofNat_inj.mp (standsOn.position.symm.trans alsoThere.position)

theorem positioned_behind (finalized : buffer.finalized = true)
    (position : buffer.position = buffer.rowCount) (current : buffer.current = none) :
    buffer.Positioned where
  unread := fun unfinalized => by simp [finalized] at unfinalized
  low := by omega
  high := Int.le_of_eq position
  current := by
    intro place
    rw [current]
    constructor
    · intro found
      cases found
    · intro standsOn
      have there := standsOn.position
      have within := standsOn.within
      omega

theorem Positioned.current_eq_none (positioned : buffer.Positioned)
    (position : buffer.position = -1) : buffer.current = none := by
  cases found : buffer.current with
  | none => rfl
  | some place =>
      have there := ((positioned.current place).mp found).position
      omega

theorem Positioned.congr (positioned : buffer.Positioned) (position : other.position = buffer.position)
    (current : other.current = buffer.current) (rowCount : other.rowCount = buffer.rowCount)
    (finalized : other.finalized = buffer.finalized) (closed : other.closed = buffer.closed) :
    other.Positioned where
  unread := by rw [finalized, position]; exact positioned.unread
  low := by rw [position]; exact positioned.low
  high := by rw [position, rowCount]; exact positioned.high
  current := by
    intro place
    rw [current, positioned.current place]
    constructor
    · exact fun ⟨isFinal, isOpen, there, within⟩ =>
        ⟨finalized.trans isFinal, closed.trans isOpen, position.trans there, rowCount.symm ▸ within⟩
    · exact fun ⟨isFinal, isOpen, there, within⟩ =>
        ⟨finalized.symm.trans isFinal, closed.symm.trans isOpen, position.symm.trans there,
          rowCount ▸ within⟩

/-- Until the result is finalized, whatever does not move the cursor leaves it before the first
row. -/
theorem Positioned.of_unfinalized (positioned : buffer.Positioned)
    (unfinalized : buffer.finalized = false) (position : other.position = buffer.position)
    (current : other.current = buffer.current) : other.Positioned :=
  have unread := positioned.unread unfinalized
  positioned_of_unread (position.trans unread) (current.trans (positioned.current_eq_none unread))

theorem moved_of_unfinalized (unfinalized : buffer.finalized = false) : buffer.Moved times :=
  fun finalized => by simp [unfinalized] at finalized

theorem moved_of_closed (closed : buffer.closed = true) : buffer.Moved times :=
  fun _ isOpen => by simp [closed] at isOpen

theorem moved_of_unread (position : buffer.position = -1) : buffer.Moved 0 := by
  intro _ _
  rw [position, Nat.zero_min]
  rfl

end Buffer

namespace ResultState

variable {settings : Settings} {state : ResultState} {times : Nat}

/-! ## Moving the cursor -/

theorem next_of_closed (finalized : state.buffer.finalized = true)
    (closed : state.buffer.closed = true) : state.next = .accept false state [] := by
  rw [next, if_neg (by simp [finalized]), if_pos (.inl closed)]

theorem Readable.next_behind (readable : state.Readable)
    (position : state.buffer.position = state.store.rows.size) :
    state.next = .accept false state [] := by
  have counted := readable.counted
  rw [next, if_neg (by simp [readable.finalized]), if_pos (.inr (by omega))]

theorem next_positioned (positioned : state.buffer.Positioned) :
    state.next.state.buffer.Positioned := by
  have low := positioned.low
  unfold next
  split
  · exact positioned
  rename_i finalized
  split
  · exact positioned
  rename_i ahead
  have isOpen : state.buffer.closed = false := by simpa using fun closed => ahead (.inl closed)
  have finalized : state.buffer.finalized = true := by simpa using finalized
  dsimp only
  split
  · rename_i within
    have there : ((state.buffer.position + 1).toNat : Int) = state.buffer.position + 1 :=
      Int.toNat_of_nonneg (by omega)
    have below : (state.buffer.position + 1).toNat < state.buffer.rowCount := by omega
    split
    · exact Buffer.positioned_on_row ⟨finalized, isOpen, there.symm, below⟩ rfl
    · exact positioned
  · rename_i beyond
    have position : state.buffer.position + 1 = state.buffer.rowCount := by omega
    exact Buffer.positioned_behind finalized position rfl

theorem close_positioned (positioned : state.buffer.Positioned) :
    state.close.state.buffer.Positioned := by
  unfold close
  split
  · exact positioned
  · refine ⟨positioned.unread, positioned.low, positioned.high, fun place => ?_⟩
    constructor
    · intro found
      cases found
    · intro standsOn
      cases standsOn.isOpen

theorem Sound.readable (sound : state.Sound) (finalized : state.buffer.finalized = true)
    (isOpen : state.buffer.closed = false) : state.Readable :=
  ⟨finalized, isOpen, sound.counted finalized⟩

theorem currentRow_of_standsOn (positioned : state.buffer.Positioned) {place : Nat}
    (standsOn : state.buffer.StandsOn place) : state.currentRow = state.rows[place]? := by
  rw [currentRow, (positioned.current place).mpr standsOn]
  exact Array.getElem?_toList.symm

theorem currentRow_eq_none (positioned : state.buffer.Positioned)
    (nowhere : ∀ place, ¬ state.buffer.StandsOn place) : state.currentRow = none := by
  unfold currentRow
  cases found : state.buffer.current with
  | none => rfl
  | some place => exact absurd ((positioned.current place).mp found) (nowhere place)

theorem currentRow_spot (positioned : state.buffer.Positioned) {row : Row}
    (shown : state.currentRow = some row) :
    ∃ place, state.buffer.StandsOn place ∧ state.rows[place]? = some row := by
  unfold currentRow at shown
  cases found : state.buffer.current with
  | none =>
      rw [found] at shown
      cases shown
  | some place =>
      rw [found] at shown
      exact ⟨place, (positioned.current place).mp found, Array.getElem?_toList.trans shown⟩

theorem Sound.currentRow_isSome_iff (sound : state.Sound) (positioned : state.buffer.Positioned) :
    state.currentRow.isSome = true ↔
      state.buffer.finalized = true ∧ state.buffer.closed = false ∧
        0 ≤ state.buffer.position ∧ state.buffer.position < state.buffer.rowCount := by
  constructor
  · intro shown
    obtain ⟨row, shown⟩ := Option.isSome_iff_exists.mp shown
    obtain ⟨place, standsOn, _⟩ := currentRow_spot positioned shown
    have there := standsOn.position
    have within := standsOn.within
    exact ⟨standsOn.finalized, standsOn.isOpen, by omega, by omega⟩
  · rintro ⟨finalized, isOpen, low, high⟩
    have counted := sound.counted finalized
    have there : (state.buffer.position.toNat : Int) = state.buffer.position :=
      Int.toNat_of_nonneg low
    have standsOn : state.buffer.StandsOn state.buffer.position.toNat :=
      ⟨finalized, isOpen, there.symm, by omega⟩
    rw [currentRow_of_standsOn positioned standsOn, rows, Array.getElem?_toList,
      Array.getElem?_eq_getElem (by omega)]
    rfl

theorem rows_of_currentRow (positioned : state.buffer.Positioned) {row : Row}
    (shown : state.currentRow = some row) :
    state.rows[state.buffer.position.toNat]? = some row := by
  obtain ⟨place, standsOn, listed⟩ := currentRow_spot positioned shown
  rwa [standsOn.position, Int.toNat_natCast]

/-- Whoever moves the cursor for the first, second, third time is shown the first, second, third
row, as long as there are rows. -/
theorem Sound.next_answer (sound : state.Sound) (positioned : state.buffer.Positioned)
    (moved : state.buffer.Moved times) (finalized : state.buffer.finalized = true)
    (isOpen : state.buffer.closed = false) (settings : Settings) :
    (state.perform settings .next).answer =
        .ok (.step (decide (times < state.rows.length)) state.rows[times]?) ∧
      (state.perform settings .next).state.buffer.position =
        (min (times + 1) (state.buffer.rowCount + 1) : Nat) - 1 := by
  have readable := sound.readable finalized isOpen
  have counted := readable.counted
  have position := moved finalized isOpen
  have size : state.rows.length = state.store.rows.size := Array.length_toList
  have shown : state.rows[times]? = state.store.rows[times]? := Array.getElem?_toList
  rw [ResultState.perform, size, shown]
  rcases Nat.lt_trichotomy times state.store.rows.size with within | behind | beyond
  · rw [readable.next_row (by omega) within, decide_eq_true within]
    refine ⟨rfl, ?_⟩
    show state.buffer.position + 1 = _
    omega
  · rw [readable.next_end (by omega), decide_eq_false (by omega),
      Array.getElem?_eq_none (by omega)]
    refine ⟨rfl, ?_⟩
    show state.buffer.position + 1 = _
    omega
  · have nowhere : ∀ place, ¬ state.buffer.StandsOn place := by
      intro place standsOn
      have there := standsOn.position
      have within := standsOn.within
      omega
    rw [readable.next_behind (by omega), decide_eq_false (by omega),
      Array.getElem?_eq_none (by omega), Outcome.mapAnswer_accept,
      currentRow_eq_none positioned nowhere]
    refine ⟨rfl, ?_⟩
    show state.buffer.position = _
    omega

/-! ## Every command -/

theorem Sound.perform_positioned (sound : state.Sound) (positioned : state.buffer.Positioned)
    (settings : Settings) (command : Command) :
    (state.perform settings command).state.buffer.Positioned := by
  by_cases moving : command = .next
  · subst moving
    rw [ResultState.perform, state_mapAnswer]
    exact next_positioned positioned
  by_cases closing : command = .close
  · subst closing
    rw [ResultState.perform, state_mapAnswer]
    exact close_positioned positioned
  have reached := sound.reached settings command
  generalize (state.perform settings command).state = after at reached
  cases reached with
  | effected _ outcome _ effect =>
      cases effect with
      | refused => exact positioned
      | appended row registered context events fillable =>
          exact positioned.of_unfinalized fillable.unfinalized rfl rfl
      | put row index registered context events fillable =>
          exact positioned.of_unfinalized fillable.unfinalized rfl rfl
      | removed row index fillable =>
          exact positioned.of_unfinalized fillable.unfinalized rfl rfl
      | rewound => exact Buffer.positioned_of_unread rfl rfl
      | moved => exact absurd rfl moving
      | closed => exact absurd rfl closing
      | _ => exact positioned.congr rfl rfl rfl rfl rfl
  | finalizedBefore => exact Buffer.positioned_of_unread rfl rfl
  | indexMissing => exact positioned
  | unordered => exact positioned
  | finished => exact Buffer.positioned_of_unread rfl rfl

theorem rowCount_next (settings : Settings) (state : ResultState) :
    (state.perform settings .next).state.buffer.rowCount = state.buffer.rowCount := by
  have unfinalizing : Command.next ≠ .finalize := by simp
  have effect := state.perform_effect settings unfinalizing
  generalize state.perform settings .next = outcome at effect
  cases effect <;> rfl

theorem Sound.next_moved (sound : state.Sound) (positioned : state.buffer.Positioned)
    (moved : state.buffer.Moved times) (settings : Settings) :
    (state.perform settings .next).state.buffer.Moved (times + 1) := by
  cases finalized : state.buffer.finalized with
  | false =>
      rw [ResultState.perform, next_unfinalized finalized]
      exact Buffer.moved_of_unfinalized finalized
  | true =>
      cases closed : state.buffer.closed with
      | true =>
          rw [ResultState.perform, next_of_closed finalized closed]
          exact Buffer.moved_of_closed closed
      | false =>
          intro _ _
          rw [rowCount_next]
          exact (sound.next_answer positioned moved finalized closed settings).2

theorem Sound.perform_moved (sound : state.Sound) (positioned : state.buffer.Positioned)
    (moved : state.buffer.Moved times) (settings : Settings) (command : Command) :
    (state.perform settings command).state.buffer.Moved (command.movesAfter times) := by
  by_cases moving : command = .next
  · subst moving
    exact sound.next_moved positioned moved settings
  by_cases rewinding : command = .rewind
  · subst rewinding
    exact Buffer.moved_of_unread rfl
  have reached := sound.reached settings command
  generalize (state.perform settings command).state = after at reached
  cases reached with
  | effected _ outcome unfinalizing effect =>
      have still : command.movesAfter times = times := by
        cases command with
        | finalize => exact absurd rfl unfinalizing
        | next => exact absurd rfl moving
        | rewind => exact absurd rfl rewinding
        | _ => rfl
      rw [still]
      cases effect with
      | appended row registered context events fillable =>
          exact Buffer.moved_of_unfinalized fillable.unfinalized
      | put row index registered context events fillable =>
          exact Buffer.moved_of_unfinalized fillable.unfinalized
      | removed row index fillable => exact Buffer.moved_of_unfinalized fillable.unfinalized
      | rewound => exact absurd rfl rewinding
      | moved => exact absurd rfl moving
      | closed => exact Buffer.moved_of_closed rfl
      | _ => exact moved
  | finalizedBefore => exact Buffer.moved_of_unread rfl
  | indexMissing unfinalized => exact Buffer.moved_of_unfinalized unfinalized
  | unordered pending fault unfinalized => exact Buffer.moved_of_unfinalized unfinalized
  | finished => exact Buffer.moved_of_unread rfl

theorem Sound.finalize_unread (sound : state.Sound) {final : ResultState} {events : List Event}
    (accepted : state.finalize settings = .accept () final events) :
    final.buffer.finalized = true ∧ final.buffer.position = -1 ∧ final.buffer.current = none := by
  cases finalized : state.buffer.finalized with
  | true =>
      rw [finalize, if_pos finalized] at accepted
      cases accepted
      exact ⟨finalized, rfl, rfl⟩
  | false =>
      obtain ⟨pending, ordered, _, _, rfl⟩ := sound.exists_finished finalized accepted
      exact ⟨rfl, rfl, rfl⟩

theorem Sound.unread_of_answer (sound : state.Sound)
    (accepted : (state.perform settings .finalize).answer = .ok .done) :
    let final := (state.perform settings .finalize).state.buffer
    final.finalized = true ∧ final.position = -1 ∧ final.current = none := by
  rw [ResultState.perform] at accepted ⊢
  rw [state_mapAnswer]
  generalize finalizing : state.finalize settings = outcome at accepted
  obtain ⟨answer, final, events⟩ := outcome
  cases answer with
  | error fault => cases accepted
  | ok _ => exact sound.finalize_unread finalizing

/-- Finalizing a finalized result again only puts its cursor before the first row. -/
theorem perform_finalize_again (state : ResultState) (finalized : state.buffer.finalized = true)
    (settings : Settings) :
    state.perform settings .finalize = state.perform settings .rewind := by
  simp only [perform, finalize, rewind, finalized, if_true]

theorem shallowCopy_unread {frozen : ResultState} {owner : Option String} {copy : Buffer}
    (copied : state.shallowCopy owner = some (frozen, copy)) :
    copy.finalized = true ∧ copy.position = -1 ∧ copy.current = none := by
  unfold shallowCopy at copied
  split at copied
  · cases copied
    exact ⟨rfl, rfl, rfl⟩
  · cases copied

/-! ## Moving it again and again -/

theorem Sound.moves (sound : state.Sound) (positioned : state.buffer.Positioned)
    (moved : state.buffer.Moved times) (settings : Settings) (count : Nat) :
    let after := (state.performAll settings (List.replicate count .next)).2
    after.buffer.Positioned ∧ after.buffer.Moved (times + count) := by
  induction count generalizing state times with
  | zero => exact ⟨positioned, moved⟩
  | succ count ih =>
      have others := ih (sound.perform settings .next)
        (sound.perform_positioned positioned settings .next)
        (sound.next_moved positioned moved settings)
      rwa [Nat.add_right_comm] at others

/-- The answers to moving a cursor from before the rows to their end. -/
def scanOf (rows : List Row) : List (Except Fault Answer) :=
  rows.map (fun row => .ok (.step true (some row))) ++ [.ok (.step false none)]

theorem scanOf_eq (rows : List Row) :
    scanOf rows = (List.range' 0 (rows.length + 1)).map fun place =>
      .ok (.step (decide (place < rows.length)) rows[place]?) := by
  refine List.ext_getElem (by simp [scanOf]) fun place within _ => ?_
  simp only [scanOf, List.length_append, List.length_map, List.length_singleton] at within
  simp only [scanOf, List.getElem_map, List.getElem_range', List.getElem_append, List.length_map]
  split
  · simp_all
  · have behind : place = rows.length := by omega
    simp [behind]

theorem Sound.answers_moves (sound : state.Sound) (positioned : state.buffer.Positioned)
    (moved : state.buffer.Moved times) (finalized : state.buffer.finalized = true)
    (isOpen : state.buffer.closed = false) (settings : Settings) (count : Nat) :
    (state.performAll settings (List.replicate count .next)).1 =
      (List.range' times count).map fun place =>
        .ok (.step (decide (place < state.rows.length)) state.rows[place]?) := by
  induction count generalizing state times with
  | zero => rfl
  | succ count ih =>
      have shown := (sound.next_answer positioned moved finalized isOpen settings).1
      have stays : Command.next ≠ .close := nofun
      have stillOpen := (sound.perform_registers settings stays).closed.trans isOpen
      have sameRows : (state.perform settings .next).state.rows = state.rows := by
        rw [ResultState.perform, state_mapAnswer, rows, store_next]
        rfl
      have others := ih (sound.perform settings .next)
        (sound.perform_positioned positioned settings .next)
        (sound.next_moved positioned moved settings)
        (finalized_perform settings finalized .next) stillOpen
      rw [sameRows] at others
      rw [List.replicate_succ, ResultState.performAll, List.range'_succ, List.map_cons, shown, others]

/-- From before the first row, an open cursor is moved over all rows. -/
theorem Sound.scans (sound : state.Sound) (position : state.buffer.position = -1)
    (current : state.buffer.current = none) (finalized : state.buffer.finalized = true)
    (isOpen : state.buffer.closed = false) (settings : Settings) :
    (state.performAll settings (List.replicate (state.rows.length + 1) .next)).1 =
      scanOf state.rows := by
  rw [scanOf_eq]
  exact sound.answers_moves (Buffer.positioned_of_unread position current)
    (Buffer.moved_of_unread position) finalized isOpen settings _

/-- How often a transfer moves the cursor of its source. -/
def tries : Nat → Transfer → Nat
  | 0, _ => 0
  | count + 1, pair =>
      let moved := pair.source.next
      match moved.answer, moved.state.currentRow with
      | .ok true, some row =>
          let added := pair.target.add (row.take pair.source.buffer.visible)
          match added.answer with
          | .error _ => 1
          | .ok _ => tries count ⟨moved.state, added.state⟩ + 1
      | _, _ => 1

theorem source_transfer (settings : Settings) (count : Nat) (pair : Transfer) :
    (transfer count pair).state.source =
      (pair.source.performAll settings (List.replicate (tries count pair) .next)).2 := by
  induction count generalizing pair with
  | zero => rfl
  | succ count ih =>
      have again : ∀ others, (pair.source.performAll settings
          (List.replicate (others + 1) .next)).2 =
            (pair.source.next.state.performAll settings (List.replicate others .next)).2 := by
        intro others
        rw [List.replicate_succ, performAll, ResultState.perform, state_mapAnswer]
      have once := again 0
      simp only [transfer, tries]
      cases answered : pair.source.next.answer with
      | error fault => exact once.symm
      | ok advanced =>
          cases advanced with
          | false => exact once.symm
          | true =>
              cases shown : pair.source.next.state.currentRow with
              | none => exact once.symm
              | some row =>
                  dsimp only
                  cases added : (pair.target.add (row.take pair.source.buffer.visible)).answer with
                  | error fault => exact once.symm
                  | ok _ =>
                      rw [again]
                      exact ih _

theorem source_readInto (settings : Settings) (count : Nat) (pair : Transfer) :
    (readInto settings count pair).state.source =
      (pair.source.performAll settings (List.replicate (tries count pair) .next)).2 := by
  rw [← source_transfer, readInto]
  generalize transfer count pair = transferred
  obtain ⟨answer, moved, events⟩ := transferred
  cases answer <;> rfl

end ResultState

end QueryResult
