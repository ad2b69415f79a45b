import QueryResult.Proofs.RowKey
import QueryResult.Proofs.Value.Hash

/-!
# The hashes of row keys

The hash of a row takes its values in one after the other, each as a function of
the hash before it that no two hashes agree on. A difference that one value makes
is therefore never lost: rows that differ in content at one position only have
different hashes if the values there have, as values of fixed width always do.

Values of fixed width enter by exclusive or, so that a row of such values has the
exclusive or of their hashes. It does not depend on their order, and values that
occur twice leave no trace in it.
-/

set_option autoImplicit false

namespace QueryResult

variable {left right : Row}

theorem chainHash_append (start : UInt64) (before after : List Value) :
    chainHash start (before ++ after) = chainHash (chainHash start before) after :=
  List.foldl_append

theorem chainHash_injective (values : List Value) :
    Function.Injective fun start => chainHash start values := by
  induction values with
  | nil => exact Function.injective_id
  | cons value rest ih => exact ih.comp (Value.contentHash_injective value)

/-! ## Rows that differ at one position -/

/-- Rows of one width have equal content at every position, one perhaps excepted. -/
structure AgreeBesides (position : Nat) (left right : Row) : Prop where
  width : left.length = right.length
  others : ∀ (other : Nat) (inLeft : other < left.length) (inRight : other < right.length),
    other ≠ position → left[other].contentEq right[other] = true

theorem AgreeBesides.behind_first {leftValue rightValue : Value}
    (agree : AgreeBesides 0 (leftValue :: left) (rightValue :: right)) :
    sameContent left right = true := by
  apply sameContent_iff_forall₂.mpr
  apply List.forall₂_iff_get.mpr
  refine ⟨Nat.succ.inj agree.width, fun other inLeft inRight => ?_⟩
  exact agree.others (other + 1) (Nat.succ_lt_succ inLeft) (Nat.succ_lt_succ inRight)
    (Nat.succ_ne_zero other)

theorem AgreeBesides.first {position : Nat} {leftValue rightValue : Value}
    (agree : AgreeBesides (position + 1) (leftValue :: left) (rightValue :: right)) :
    leftValue.contentEq rightValue = true :=
  agree.others 0 (Nat.succ_pos _) (Nat.succ_pos _) (Nat.succ_ne_zero position).symm

theorem AgreeBesides.behind {position : Nat} {leftValue rightValue : Value}
    (agree : AgreeBesides (position + 1) (leftValue :: left) (rightValue :: right)) :
    AgreeBesides position left right where
  width := Nat.succ.inj agree.width
  others := by
    intro other inLeft inRight apart
    exact agree.others (other + 1) (Nat.succ_lt_succ inLeft) (Nat.succ_lt_succ inRight)
      fun same => apart (Nat.succ.inj same)

/-- The hashes of rows that agree besides one position are equal exactly if the values there have the
same hash under the hash of what stands before them. -/
theorem AgreeBesides.chainHash_eq_iff {position : Nat} (agree : AgreeBesides position left right)
    (inLeft : position < left.length) (inRight : position < right.length) (start : UInt64) :
    chainHash start left = chainHash start right ↔
      left[position].contentHash (chainHash start (left.take position)) =
        right[position].contentHash (chainHash start (left.take position)) := by
  induction left generalizing right position start with
  | nil => exact absurd inLeft (Nat.not_lt_zero _)
  | cons leftValue leftRest ih =>
      cases right with
      | nil => exact absurd inRight (Nat.not_lt_zero _)
      | cons rightValue rightRest =>
          cases position with
          | zero =>
              -- What follows the position is equal, and keeps apart the hashes it starts from.
              change chainHash (leftValue.contentHash start) leftRest =
                chainHash (rightValue.contentHash start) rightRest ↔ _
              rw [← chainHash_eq_of_sameContent agree.behind_first]
              exact (chainHash_injective leftRest).eq_iff
          | succ position =>
              change chainHash (leftValue.contentHash start) leftRest =
                chainHash (rightValue.contentHash start) rightRest ↔ _
              rw [← Value.contentHash_eq_of_contentEq agree.first]
              exact ih agree.behind (Nat.lt_of_succ_lt_succ inLeft) (Nat.lt_of_succ_lt_succ inRight)
                (leftValue.contentHash start)

/-- Rows that agree besides one position, at which both have values of fixed width and of one type,
have the same hash only if these values are of equal content as well, whatever else the rows hold and
wherever the position is. For two such values have the same hash under a seed exactly if their content
is equal, and no value of any type has the same hash under two seeds. -/
theorem fixed_width_keys_never_collide :
    (∀ (left right : Row) (position : Nat) (inLeft : position < left.length)
        (inRight : position < right.length), AgreeBesides position left right →
      left[position].FixedWidth → right[position].FixedWidth →
      left[position].type = right[position].type →
        ((RowKey.ofRow left).hash = (RowKey.ofRow right).hash ↔
          left[position].contentEq right[position] = true)) ∧
    (∀ (left right : Value) (seed : UInt64), left.FixedWidth → right.FixedWidth →
      left.type = right.type →
        (left.contentHash seed = right.contentHash seed ↔ left.contentEq right = true)) ∧
    ∀ value : Value, Function.Injective value.contentHash := by
  refine ⟨?rows, ?values, Value.contentHash_injective⟩
  case rows =>
    intro left right position inLeft inRight agree leftFixed rightFixed sameType
    exact (agree.chainHash_eq_iff inLeft inRight 0).trans
      (Value.contentHash_eq_iff leftFixed rightFixed sameType _)
  case values =>
    intro left right seed leftFixed rightFixed sameType
    exact Value.contentHash_eq_iff leftFixed rightFixed sameType seed

theorem fixed_width_keys_never_collide_sample :
    let left : Row := [.varchar [97], .double 0, .largeObject .blob [1] .owned, .null .clob]
    let right : Row :=
      [.varchar [97], .double 1, .largeObject .blob [1] (.linked "source"), .null .clob]
    (RowKey.ofRow left).hash ≠ (RowKey.ofRow right).hash ∧
      (Value.tinyInt (-1)).contentHash 7 ≠ (Value.tinyInt 1).contentHash 7 := by
  intro left right
  have agree : AgreeBesides 1 left right := ⟨by decide, by decide⟩
  obtain ⟨rows, values, _⟩ := fixed_width_keys_never_collide
  constructor
  · rw [Ne, rows left right 1 (by decide) (by decide) agree (by decide) (by decide) (by decide)]
    decide
  · rw [Ne, values _ _ 7 (by decide) (by decide) (by decide)]
    decide

/-! ## Rows of fixed width -/

theorem chainHash_of_fixedWidth {values : List Value} (fixed : ∀ value ∈ values, value.FixedWidth)
    (start : UInt64) :
    chainHash start values =
      Hash.xorAll (values.map fun value => value.contentHash 0) ^^^ start := by
  induction values generalizing start with
  | nil => exact UInt64.zero_xor.symm
  | cons value rest ih =>
      obtain ⟨valueFixed, restFixed⟩ := List.forall_mem_cons.mp fixed
      calc
        chainHash start (value :: rest) = chainHash (value.contentHash start) rest := rfl
        _ = Hash.xorAll (rest.map fun value => value.contentHash 0) ^^^ value.contentHash start :=
          ih restFixed _
        _ = Hash.xorAll (rest.map fun value => value.contentHash 0) ^^^
              (value.contentHash 0 ^^^ start) := by rw [valueFixed.contentHash_eq_xor start]
        _ = Hash.xorAll ((value :: rest).map fun value => value.contentHash 0) ^^^ start := by
          rw [List.map_cons, Hash.xorAll_cons, ← UInt64.xor_assoc,
            UInt64.xor_comm (value.contentHash 0)]

theorem chainHash_perm {values others : List Value} (fixed : ∀ value ∈ values, value.FixedWidth)
    (perm : values.Perm others) (start : UInt64) :
    chainHash start values = chainHash start others := by
  have othersFixed : ∀ value ∈ others, value.FixedWidth :=
    fun value listed => fixed value (perm.mem_iff.mpr listed)
  rw [chainHash_of_fixedWidth fixed, chainHash_of_fixedWidth othersFixed,
    Hash.xorAll_perm (perm.map _)]

theorem chainHash_pair {first second : Value} (fixed : first.FixedWidth)
    (equal : first.contentEq second = true) (start : UInt64) (rest : List Value) :
    chainHash start (first :: second :: rest) = chainHash start rest := by
  change chainHash (second.contentHash (first.contentHash start)) rest = chainHash start rest
  rw [← Value.contentHash_eq_of_contentEq equal, fixed.contentHash_eq_xor (first.contentHash start),
    fixed.contentHash_eq_xor start, ← UInt64.xor_assoc, UInt64.xor_self, UInt64.zero_xor]

/-- Two values of equal content leave no trace if they and all values between them have fixed width,
whatever stands before and after them. -/
theorem chainHash_insert_pair {first second : Value} {between : List Value}
    (fixed : first.FixedWidth) (equal : first.contentEq second = true)
    (betweenFixed : ∀ value ∈ between, value.FixedWidth) (start : UInt64)
    (before after : List Value) :
    chainHash start (before ++ first :: (between ++ second :: after)) =
      chainHash start (before ++ (between ++ after)) := by
  have moved : (first :: (between ++ [second])).Perm (first :: second :: between) :=
    (List.perm_append_singleton second between).cons first
  have allFixed : ∀ value ∈ first :: (between ++ [second]), value.FixedWidth := by
    intro value listed
    rcases List.mem_cons.mp (moved.mem_iff.mp listed) with rfl | listed
    · exact fixed
    · rcases List.mem_cons.mp listed with rfl | listed
      · exact fixed.of_contentEq equal
      · exact betweenFixed value listed
  have untraced (seed : UInt64) :
      chainHash seed (first :: (between ++ [second])) = chainHash seed between :=
    (chainHash_perm allFixed moved seed).trans (chainHash_pair fixed equal seed between)
  have split : first :: (between ++ second :: after) = first :: (between ++ [second]) ++ after := by
    simp
  rw [split, chainHash_append, chainHash_append, untraced, ← chainHash_append, ← chainHash_append]

/-- The hash of a row of values of fixed width is the exclusive or of their own hashes, so that it does
not depend on their order. Two values of fixed width and equal content can be inserted at any two
places of such a row, and of any row that has only values of fixed width between these places, without
a change to its hash. A row of twice the same value of fixed width has the hash zero. -/
theorem fixed_width_hash_orderless :
    (∀ row : Row, (∀ value ∈ row, value.FixedWidth) →
      (RowKey.ofRow row).hash = Hash.xorAll (row.map fun value => value.contentHash 0)) ∧
    (∀ left right : Row, (∀ value ∈ left, value.FixedWidth) → left.Perm right →
      (RowKey.ofRow left).hash = (RowKey.ofRow right).hash) ∧
    (∀ (before between after : Row) (first second : Value),
      first.FixedWidth → first.contentEq second = true → (∀ value ∈ between, value.FixedWidth) →
        (RowKey.ofRow (before ++ first :: (between ++ second :: after))).hash =
          (RowKey.ofRow (before ++ (between ++ after))).hash) ∧
    ∀ value : Value, value.FixedWidth → (RowKey.ofRow [value, value]).hash = 0 := by
  refine ⟨?joined, ?reordered, ?inserted, ?twice⟩
  case joined =>
    intro row fixed
    exact (chainHash_of_fixedWidth fixed 0).trans UInt64.xor_zero
  case reordered => exact fun left right fixed perm => chainHash_perm fixed perm 0
  case inserted =>
    intro before between after first second fixed equal betweenFixed
    exact chainHash_insert_pair fixed equal betweenFixed 0 before after
  case twice =>
    intro value fixed
    exact chainHash_pair fixed (Value.contentEq_equivalence.refl value) 0 []

theorem fixed_width_hash_orderless_sample :
    let row : Row := [.integer 3, .double 0, .boolean true]
    (RowKey.ofRow row).hash = Hash.xorAll (row.map fun value => value.contentHash 0) ∧
      (RowKey.ofRow row).hash = (RowKey.ofRow [.boolean true, .double 0, .integer 3]).hash ∧
      (RowKey.ofRow [.integer 3, .double 0, .boolean true, .double 0x8000000000000000]).hash =
        (RowKey.ofRow [.integer 3, .boolean true]).hash ∧
      (RowKey.ofRow [.float 0x7fc00001, .float 0x7fc00001]).hash = 0 := by
  intro row
  have fixed : ∀ value ∈ row, value.FixedWidth := by decide
  obtain ⟨joined, reordered, inserted, twice⟩ := fixed_width_hash_orderless
  refine ⟨joined row fixed, reordered row _ fixed (List.reverse_perm row).symm, ?_,
    twice _ (by decide)⟩
  exact inserted [.integer 3] [.boolean true] [] (.double 0) (.double 0x8000000000000000) (by decide)
    (by decide) (by decide)

end QueryResult
