import QueryResult.Buffer.Cursor

/-!
# Reading to the end

A finalized buffer that holds as many rows as it counts delivers the rows behind
its cursor, each once and in order, and then nothing.
-/

set_option autoImplicit false

namespace QueryResult.ResultState

/-- Moving the cursor until it is at the end shows the given rows. -/
inductive Delivers : ResultState → List Row → Prop
  | ended {state after : ResultState} (moved : state.next = .accept false after []) :
      Delivers state []
  | row {state after : ResultState} {row : Row} {rest : List Row}
      (moved : state.next = .accept true after []) (shown : after.currentRow = some row)
      (others : Delivers after rest) : Delivers state (row :: rest)

/-- A cursor has one reading. -/
theorem Delivers.unique {state : ResultState} {rows other : List Row}
    (delivered : Delivers state rows) (otherDelivered : Delivers state other) : rows = other := by
  induction delivered generalizing other with
  | ended moved =>
      cases otherDelivered with
      | ended _ => rfl
      | row again _ _ =>
          rw [moved] at again
          simp [Outcome.accept] at again
  | row moved shown others ih =>
      cases otherDelivered with
      | ended again =>
          rw [moved] at again
          simp [Outcome.accept] at again
      | row again alsoShown alsoOthers =>
          rw [moved] at again
          simp only [Outcome.accept, Outcome.mk.injEq, and_true, true_and] at again
          subst again
          rw [shown] at alsoShown
          rw [Option.some.inj alsoShown, ih alsoOthers]

/-- The buffer is ready to be read: it is finalized and open, and counts its rows right. -/
structure Readable (state : ResultState) : Prop where
  finalized : state.buffer.finalized = true
  isOpen : state.buffer.closed = false
  counted : state.buffer.rowCount = state.store.rows.size

/-- The state with the cursor one further, on the given row. -/
def advancedTo (state : ResultState) (current : Option Nat) : ResultState :=
  { state with
    buffer := { state.buffer with position := state.buffer.position + 1, current := current } }

theorem Readable.advance {state : ResultState} (readable : state.Readable)
    (current : Option Nat) : (state.advancedTo current).Readable :=
  ⟨readable.finalized, readable.isOpen, readable.counted⟩

theorem Readable.next_row {state : ResultState} (readable : state.Readable) {consumed : Nat}
    (position : state.buffer.position = (consumed : Int) - 1)
    (held : consumed < state.store.rows.size) :
    state.next = .accept true (state.advancedTo (some consumed)) [] := by
  have counted := readable.counted
  have behind : ¬ (state.buffer.closed = true ∨
      (state.buffer.rowCount : Int) ≤ state.buffer.position) := by
    rw [readable.isOpen]
    simp only [Bool.false_eq_true, false_or]
    omega
  have target : (state.buffer.position + 1).toNat = consumed := by omega
  unfold next
  rw [if_neg (by simp [readable.finalized]), if_neg behind]
  dsimp only
  rw [target, if_pos (by omega), if_pos held]
  rfl

theorem Readable.next_end {state : ResultState} (readable : state.Readable)
    (position : state.buffer.position = (state.store.rows.size : Int) - 1) :
    state.next = .accept false (state.advancedTo none) [] := by
  have counted := readable.counted
  have behind : ¬ (state.buffer.closed = true ∨
      (state.buffer.rowCount : Int) ≤ state.buffer.position) := by
    rw [readable.isOpen]
    simp only [Bool.false_eq_true, false_or]
    omega
  unfold next
  rw [if_neg (by simp [readable.finalized]), if_neg behind]
  dsimp only
  rw [if_neg (by omega)]
  rfl

theorem Readable.delivers_drop {state : ResultState} (readable : state.Readable) {consumed : Nat}
    (position : state.buffer.position = (consumed : Int) - 1)
    (within : consumed ≤ state.store.rows.size) :
    Delivers state (state.rows.drop consumed) := by
  generalize remaining : state.store.rows.size - consumed = count
  induction count generalizing state consumed with
  | zero =>
      have nothing : state.rows.drop consumed = [] :=
        List.drop_eq_nil_of_le (by rw [rows, Array.length_toList]; omega)
      rw [nothing]
      exact .ended (readable.next_end (by omega))
  | succ count ih =>
      have held : consumed < state.store.rows.size := by omega
      have first : state.rows.drop consumed =
          state.store.rows[consumed] :: state.rows.drop (consumed + 1) :=
        List.drop_eq_getElem_cons (by rwa [rows, Array.length_toList])
      rw [first]
      refine .row (readable.next_row position held) (Array.getElem?_eq_getElem held) ?_
      exact ih (readable.advance (some consumed)) (by simp only [advancedTo]; omega) held
        (by simp only [advancedTo]; omega)

/-- Before its first row, the cursor delivers all rows. -/
theorem Readable.delivers_rows {state : ResultState} (readable : state.Readable)
    (position : state.buffer.position = -1) : Delivers state state.rows := by
  have atStart : state.buffer.position = ((0 : Nat) : Int) - 1 := by rw [position]; rfl
  exact readable.delivers_drop atStart (Nat.zero_le _)

end QueryResult.ResultState
