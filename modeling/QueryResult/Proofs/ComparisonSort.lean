import Mathlib.Logic.Equiv.Basic
import QueryResult.Proofs.OrderBy.Faults
import QueryResult.Proofs.PartitionSort

/-!
# Sorting by comparisons

A procedure sorts by comparisons if it sorts under every strict weak order,
looks at items only by comparing them, and fails only with a comparison that
fails. Such a procedure compares any two items that are neighbours in its
result: an order in which those two are exchanged gives the same answers to all
other comparisons, but another result.

Sorting by partitions is one such procedure.
-/

set_option autoImplicit false

namespace QueryResult

/-- The second computation answers whatever the first one answers. -/
def Refines {ε β : Type} (first second : Except ε β) : Prop :=
  ∀ answer, first = .ok answer → second = .ok answer

namespace Refines

variable {ε β γ : Type} {first second : Except ε β}

theorem refl (first : Except ε β) : Refines first first :=
  fun _ answered => answered

theorem bind {next otherNext : β → Except ε γ} (refines : Refines first second)
    (rest : ∀ answer, Refines (next answer) (otherNext answer)) :
    Refines (first >>= next) (second >>= otherNext) := by
  intro result answered
  obtain ⟨middle, started, finished⟩ := HeapSelection.bind_eq_ok answered
  rw [refines middle started]
  exact rest middle result finished

theorem foldlM {step otherStep : β → γ → Except ε β}
    (each : ∀ state item, Refines (step state item) (otherStep state item)) (items : List γ)
    (start : β) : Refines (items.foldlM step start) (items.foldlM otherStep start) := by
  induction items generalizing start with
  | nil => exact refl _
  | cons item rest ih =>
      rw [List.foldlM_cons, List.foldlM_cons]
      exact (each start item).bind ih

end Refines

/-! ## Procedures -/

open HeapSelection

/-- A way to sort arrays by comparisons that may fail. -/
abbrev Procedure (α ε : Type) :=
  (α → α → Except ε Bool) → Array α → Except ε (Array α)

/-- The second comparison answers whatever the first one answers. -/
def AnswersMore {α ε : Type} (before other : α → α → Except ε Bool) : Prop :=
  ∀ left right, Refines (before left right) (other left right)

/-- No later item comes before an earlier one. -/
def Ascending {α : Type} (lt : α → α → Bool) (items : Array α) : Prop :=
  ∀ earlier later, earlier < later → NotBefore lt items later earlier

/-- The procedure sorts under every strict weak order. -/
def Procedure.Sorts {α ε : Type} (procedure : Procedure α ε) : Prop :=
  ∀ {before : α → α → Except ε Bool} {lt : α → α → Bool} {items : Array α},
    StrictWeakOrder lt → Decides before lt items →
      ∃ sorted, procedure before items = .ok sorted ∧ sorted.Perm items ∧ Ascending lt sorted

/-- The procedure sorts, and it learns of the items only what comparisons answer. -/
structure Procedure.Comparing {α ε : Type} (procedure : Procedure α ε) : Prop where
  sorts : procedure.Sorts
  /-- Comparisons that answer more, but nothing else, do not change what is answered. -/
  refines : ∀ {before other : α → α → Except ε Bool}, AnswersMore before other →
      ∀ items, Refines (procedure before items) (procedure other items)
  fails : ∀ {before : α → α → Except ε Bool} {items : Array α} {fault : ε},
    procedure before items = .error fault →
      ∃ left ∈ items, ∃ right ∈ items, before left right = .error fault

section Neighbours

variable {α ε : Type} {procedure : Procedure α ε} {before : α → α → Except ε Bool}
  {lt : α → α → Bool} {items sorted : Array α}

/-- The comparison that answers for all of the items as `lt` does, and for others as it did. -/
def completing [DecidableEq α] (before : α → α → Except ε Bool) (lt : α → α → Bool)
    (items : Array α) (left right : α) : Except ε Bool :=
  if left ∈ items ∧ right ∈ items then .ok (lt left right) else before left right

theorem decides_completing [DecidableEq α] : Decides (completing before lt items) lt items := by
  intro left leftHeld right rightHeld
  exact if_pos ⟨leftHeld, rightHeld⟩

/-- What a comparing procedure has answered is in order under every strict weak order that gives
the answers that the comparisons gave. -/
theorem Procedure.Comparing.ascending [DecidableEq α] (comparing : procedure.Comparing)
    (order : StrictWeakOrder lt)
    (agrees : ∀ left ∈ items, ∀ right ∈ items, ∀ answer,
      before left right = .ok answer → lt left right = answer)
    (accepted : procedure before items = .ok sorted) :
    sorted.Perm items ∧ Ascending lt sorted := by
  have answersMore : AnswersMore before (completing before lt items) := by
    intro left right answer answered
    unfold completing
    split
    · rename_i held
      rw [agrees left held.1 right held.2 answer answered]
    · exact answered
  obtain ⟨result, completed, rearranged, ascending⟩ := comparing.sorts order decides_completing
  have same := comparing.refines answersMore items sorted accepted
  cases completed.symm.trans same
  exact ⟨rearranged, ascending⟩

/-- Items that differ are told apart, one way or the other. -/
def TellsApart (lt : α → α → Bool) (items : Array α) : Prop :=
  ∀ left ∈ items, ∀ right ∈ items, left ≠ right → lt left right = false → lt right left = true

theorem Ascending.lt_of_lt (ascending : Ascending lt sorted) (tellsApart : TellsApart lt sorted)
    (different : sorted.toList.Nodup) {earlier later : Nat} (inOrder : earlier < later)
    (held : later < sorted.size) : lt sorted[earlier] sorted[later] = true := by
  have notBefore : lt sorted[later] sorted[earlier] = false :=
    ascending earlier later inOrder _ _ (Array.getElem?_eq_getElem held)
      (Array.getElem?_eq_getElem (by omega))
  refine tellsApart _ (Array.getElem_mem held) _ (Array.getElem_mem _) (fun same => ?_) notBefore
  have apart := List.pairwise_iff_getElem.mp different earlier later (by simp; omega)
    (by simpa using held) inOrder
  exact apart (by simpa using same.symm)

/-- An item that is none of two neighbours is on the same side of both. -/
theorem same_side_of_neighbours (order : StrictWeakOrder lt)
    (ascends : ∀ earlier later (inOrder : earlier < later) (held : later < sorted.size),
      lt sorted[earlier] sorted[later] = true)
    {position : Nat} (held : position + 1 < sorted.size) (other : α) (listed : other ∈ sorted)
    (notFirst : other ≠ sorted[position]) (notSecond : other ≠ sorted[position + 1]) :
    lt sorted[position] other = lt sorted[position + 1] other ∧
      lt other sorted[position] = lt other sorted[position + 1] := by
  obtain ⟨place, within, rfl⟩ := Array.mem_iff_getElem.mp listed
  have notAtFirst : place ≠ position := by
    rintro rfl
    exact notFirst rfl
  have notAtSecond : place ≠ position + 1 := by
    rintro rfl
    exact notSecond rfl
  rcases Nat.lt_or_ge place position with ahead | notAhead
  · have beforeFirst := ascends place position ahead (by omega)
    have beforeSecond := ascends place (position + 1) (by omega) held
    exact ⟨(order.asymm beforeFirst).trans (order.asymm beforeSecond).symm,
      beforeFirst.trans beforeSecond.symm⟩
  · have behindFirst := ascends position place (by omega) within
    have behindSecond := ascends (position + 1) place (by omega) within
    exact ⟨behindFirst.trans behindSecond.symm,
      (order.asymm behindFirst).trans (order.asymm behindSecond).symm⟩

/-- Exchanging two neighbours changes no comparison of other items, or of one of them. -/
theorem lt_exchanged [DecidableEq α] (order : StrictWeakOrder lt) {first second left right : α}
    (leftSides : left ≠ first → left ≠ second →
      lt first left = lt second left ∧ lt left first = lt left second)
    (rightSides : right ≠ first → right ≠ second →
      lt first right = lt second right ∧ lt right first = lt right second)
    (notForth : ¬ (left = first ∧ right = second)) (notBack : ¬ (left = second ∧ right = first)) :
    lt (Equiv.swap first second left) (Equiv.swap first second right) = lt left right := by
  by_cases same : left = right
  · subst same
    rw [order.irrefl, order.irrefl]
  by_cases leftFirst : left = first
  · subst leftFirst
    have rightFirst : right ≠ left := fun other => same other.symm
    have rightSecond : right ≠ second := fun other => notForth ⟨rfl, other⟩
    rw [Equiv.swap_apply_left, Equiv.swap_apply_of_ne_of_ne rightFirst rightSecond]
    exact (rightSides rightFirst rightSecond).1.symm
  by_cases leftSecond : left = second
  · subst leftSecond
    have rightFirst : right ≠ first := fun other => notBack ⟨rfl, other⟩
    have rightSecond : right ≠ left := fun other => same other.symm
    rw [Equiv.swap_apply_right, Equiv.swap_apply_of_ne_of_ne rightFirst rightSecond]
    exact (rightSides rightFirst rightSecond).1
  rw [Equiv.swap_apply_of_ne_of_ne leftFirst leftSecond]
  by_cases rightFirst : right = first
  · subst rightFirst
    rw [Equiv.swap_apply_left]
    exact (leftSides leftFirst leftSecond).2.symm
  by_cases rightSecond : right = second
  · subst rightSecond
    rw [Equiv.swap_apply_right]
    exact (leftSides leftFirst leftSecond).2
  · rw [Equiv.swap_apply_of_ne_of_ne rightFirst rightSecond]

/-- A procedure that sorts by comparisons has compared all neighbours of its result. -/
theorem Procedure.Comparing.compares_neighbours [DecidableEq α]
    (comparing : procedure.Comparing) (order : StrictWeakOrder lt) (tellsApart : TellsApart lt items)
    (different : items.toList.Nodup)
    (agrees : ∀ left ∈ items, ∀ right ∈ items, ∀ answer,
      before left right = .ok answer → lt left right = answer)
    (accepted : procedure before items = .ok sorted) {position : Nat}
    (held : position + 1 < sorted.size) :
    (∃ answer, before sorted[position] sorted[position + 1] = .ok answer) ∨
      ∃ answer, before sorted[position + 1] sorted[position] = .ok answer := by
  by_contra neither
  obtain ⟨notForth, notBack⟩ := not_or.mp neither
  obtain ⟨rearranged, ascending⟩ := comparing.ascending order agrees accepted
  have sortedTellsApart : TellsApart lt sorted := fun left leftHeld right rightHeld =>
    tellsApart left (rearranged.mem_iff.mp leftHeld) right (rearranged.mem_iff.mp rightHeld)
  have sortedDifferent : sorted.toList.Nodup :=
    (Array.perm_iff_toList_perm.mp rearranged).nodup_iff.mpr different
  have ascends : ∀ earlier later (inOrder : earlier < later) (held : later < sorted.size),
      lt sorted[earlier] sorted[later] = true := fun _ _ inOrder within =>
    ascending.lt_of_lt sortedTellsApart sortedDifferent inOrder within
  have inOrder := ascends position (position + 1) (Nat.lt_succ_self _) held
  have sides := same_side_of_neighbours order ascends held
  generalize firstIs : sorted[position] = first at *
  generalize secondIs : sorted[position + 1] = second at *
  -- Under this order the two neighbours are exchanged, and nothing else is.
  let exchanged := fun left right =>
    lt (Equiv.swap first second left) (Equiv.swap first second right)
  have exchangedOrder : StrictWeakOrder exchanged := ⟨order.asymm, order.trans⟩
  have exchangedAgrees : ∀ left ∈ items, ∀ right ∈ items, ∀ answer,
      before left right = .ok answer → exchanged left right = answer := by
    intro left leftHeld right rightHeld answer answered
    rw [← agrees left leftHeld right rightHeld answer answered]
    refine lt_exchanged order (sides left (rearranged.mem_iff.mpr leftHeld))
      (sides right (rearranged.mem_iff.mpr rightHeld)) ?_ ?_
    · rintro ⟨rfl, rfl⟩
      exact notForth ⟨answer, answered⟩
    · rintro ⟨rfl, rfl⟩
      exact notBack ⟨answer, answered⟩
  have otherwise := (comparing.ascending exchangedOrder exchangedAgrees accepted).2 position
    (position + 1) (Nat.lt_succ_self _) second first
    (by rw [← secondIs]; exact Array.getElem?_eq_getElem held)
    (by rw [← firstIs]; exact Array.getElem?_eq_getElem (by omega))
  simp only [exchanged, Equiv.swap_apply_right, Equiv.swap_apply_left, inOrder] at otherwise
  cases otherwise

end Neighbours

/-! ## Sorting by partitions -/

namespace HeapSelection

variable {α ε : Type} {before other : α → α → Except ε Bool}

theorem beforeAt_refines (more : AnswersMore before other) (items : Array α) (left right : Nat) :
    Refines (beforeAt before items left right) (beforeAt other items left right) := by
  unfold beforeAt
  split
  · exact more _ _
  · exact .refl _

theorem descend_refines (more : AnswersMore before other) (items : Array α) (hole size : Nat) :
    Refines (descend before items hole size) (descend other items hole size) := by
  fun_induction descend before items hole size with
  | case1 items hole both ih =>
      rw [descend.eq_def other, if_pos both]
      exact (beforeAt_refines more items _ _).bind ih
  | case2 items hole notBoth one =>
      rw [descend.eq_def other, if_neg notBoth, if_pos one]
      exact .refl _
  | case3 items hole notBoth notOne =>
      rw [descend.eq_def other, if_neg notBoth, if_neg notOne]
      exact .refl _

theorem ascend_refines (more : AnswersMore before other) (items : Array α) (top position : Nat) :
    Refines (ascend before items top position) (ascend other items top position) := by
  fun_induction ascend before items top position with
  | case1 items position lower ih =>
      rw [ascend.eq_def other, if_pos lower]
      refine (beforeAt_refines more items _ _).bind fun later => ?_
      split
      · exact ih
      · exact .refl _
  | case2 items position notLower =>
      rw [ascend.eq_def other, if_neg notLower]
      exact .refl _

theorem sift_refines (more : AnswersMore before other) (items : Array α) (top size : Nat) :
    Refines (sift before items top size) (sift other items top size) :=
  (descend_refines more items top size).bind fun lowered =>
    ascend_refines more lowered.1 top lowered.2

theorem heapify_refines (more : AnswersMore before other) (size tops : Nat) (items : Array α) :
    Refines (heapify before size tops items) (heapify other size tops items) := by
  induction tops generalizing items with
  | zero => exact .refl _
  | succ tops ih => exact (sift_refines more items tops size).bind ih

theorem offer_refines (more : AnswersMore before other) (size : Nat) (items : Array α)
    (position : Nat) :
    Refines (offer before size items position) (offer other size items position) := by
  refine (beforeAt_refines more items position 0).bind fun earlier => ?_
  split
  · exact sift_refines more _ 0 size
  · exact .refl _

theorem unheap_refines (more : AnswersMore before other) (size : Nat) (items : Array α) :
    Refines (unheap before size items) (unheap other size items) := by
  fun_induction unheap before size items with
  | case1 => exact .refl _
  | case2 => exact .refl _
  | case3 last items ih => exact (sift_refines more _ 0 (last + 1)).bind ih

theorem selectLeast_refines (more : AnswersMore before other) (count : Nat) (items : Array α) :
    Refines (selectLeast before count items) (selectLeast other count items) := by
  refine (heapify_refines more count (count / 2) items).bind fun heap => ?_
  refine (Refines.foldlM (offer_refines more count) _ heap).bind fun chosen => ?_
  exact unheap_refines more count chosen

end HeapSelection

namespace PartitionSort

variable {α ε : Type} {before other : α → α → Except ε Bool}

theorem median_refines (more : AnswersMore before other) (items : Array α)
    (left middle right : Nat) :
    Refines (median before items left middle right) (median other items left middle right) := by
  have asks := beforeAt_refines more items
  refine (asks left middle).bind fun _ => ?_
  split
  · refine (asks middle right).bind fun _ => ?_
    split
    · exact .refl _
    · exact (asks left right).bind fun _ => .refl _
  · refine (asks left right).bind fun _ => ?_
    split
    · exact .refl _
    · exact (asks middle right).bind fun _ => .refl _

theorem lastNotAfter_refines (more : AnswersMore before other) (items : Array α)
    (pivot position : Nat) :
    Refines (lastNotAfter before items pivot position) (lastNotAfter other items pivot position) := by
  induction position with
  | zero => exact .refl _
  | succ position ih =>
      refine (beforeAt_refines more items pivot position).bind fun after => ?_
      split
      · exact ih
      · exact .refl _

theorem partition_refines (more : AnswersMore before other) (pivot : Nat) (items : Array α)
    (low high : Nat) :
    Refines (partition before pivot items low high) (partition other pivot items low high) := by
  fun_induction partition before pivot items low high with
  | case1 items low high within further exchanged =>
      rw [partition.eq_def other, if_pos within]
      refine (beforeAt_refines more items low pivot).bind fun earlier => ?_
      split
      · exact further
      · refine (lastNotAfter_refines more items pivot high).bind fun last => ?_
        split
        · exact exchanged last
        · exact .refl _
  | case2 items low high beyond =>
      rw [partition.eq_def other, if_neg beyond]
      exact .refl _

theorem split_refines (more : AnswersMore before other) (items : Array α) (first stop : Nat) :
    Refines (split before items first stop) (split other items first stop) :=
  (median_refines more items _ _ _).bind fun _ => partition_refines more first _ (first + 1) stop

theorem heapSortRange_refines (more : AnswersMore before other) (items : Array α)
    (first stop : Nat) :
    Refines (heapSortRange before items first stop) (heapSortRange other items first stop) :=
  (selectLeast_refines more _ _).bind fun _ => .refl _

theorem divide_refines (more : AnswersMore before other) (depth : Nat) (items : Array α)
    (first stop : Nat) :
    Refines (divide before depth items first stop) (divide other depth items first stop) := by
  induction depth generalizing items first stop with
  | zero =>
      unfold divide
      split
      · exact .refl _
      · exact heapSortRange_refines more items first stop
  | succ depth ih =>
      unfold divide
      split
      · exact .refl _
      · refine (split_refines more items first stop).bind fun parted => ?_
        exact (ih parted.1 parted.2 stop).bind fun later => ih later first parted.2

theorem moveForward_refines (more : AnswersMore before other) (position : Nat) (items : Array α) :
    Refines (moveForward before position items) (moveForward other position items) := by
  induction position generalizing items with
  | zero => exact .refl _
  | succ position ih =>
      refine (beforeAt_refines more items _ _).bind fun earlier => ?_
      split
      · exact ih _
      · exact .refl _

theorem place_refines (more : AnswersMore before other) (items : Array α) (position : Nat) :
    Refines (place before items position) (place other items position) := by
  refine (beforeAt_refines more items position 0).bind fun first => ?_
  split
  · exact .refl _
  · exact moveForward_refines more position items

theorem sort_refines (more : AnswersMore before other) (items : Array α) :
    Refines (sort before items) (sort other items) := by
  refine (divide_refines more _ items 0 items.size).bind fun divided => ?_
  refine (Refines.foldlM (place_refines more) _ divided).bind fun started => ?_
  exact Refines.foldlM (fun placed position => moveForward_refines more position placed) _ started

theorem sort_ascending {lt : α → α → Bool} {items sorted : Array α} (order : StrictWeakOrder lt)
    (decides : Decides before lt items) (accepted : sort before items = .ok sorted) :
    Ascending lt sorted := by
  obtain ⟨rearranged, ordered⟩ := sort_ordered accepted
  have sortedDecides := decides.of_perm rearranged
  have neighbours : ∀ position, position + 1 < sorted.size →
      NotBefore lt sorted (position + 1) position := by
    intro position within later earlier laterFound earlierFound
    have laterHeld := Array.mem_of_getElem? laterFound
    have earlierHeld := Array.mem_of_getElem? earlierFound
    rcases ordered position within earlier later earlierFound laterFound with notBefore | before
    · rw [sortedDecides later laterHeld earlier earlierHeld] at notBefore
      exact Except.ok.inj notBefore
    · rw [sortedDecides earlier earlierHeld later laterHeld] at before
      exact order.asymm (Except.ok.inj before)
  intro earlier later inOrder
  induction later with
  | zero => exact absurd inOrder (Nat.not_lt_zero _)
  | succ later ih =>
      by_cases within : later + 1 < sorted.size
      · rcases Nat.lt_or_eq_of_le (Nat.le_of_lt_succ inOrder) with further | rfl
        · exact (neighbours later within).trans order (by omega) (ih further)
        · exact neighbours earlier within
      · intro laterItem earlierItem laterFound
        rw [Array.getElem?_eq_none (by omega)] at laterFound
        cases laterFound

theorem sort_fails {items : Array α} {fault : ε} (failed : sort before items = .error fault) :
    ∃ left ∈ items, ∃ right ∈ items, before left right = .error fault := by
  have compares : Compares before (· ∈ items)
      fun fault => ∃ left ∈ items, ∃ right ∈ items, before left right = .error fault := by
    intro left right leftHeld rightHeld
    cases compared : before left right with
    | error fault => exact ⟨left, leftHeld, right, rightHeld, compared⟩
    | ok answer => trivial
  have yields := sort_yields compares fun _ held => held
  rwa [failed] at yields

/-- Sorting by partitions is sorting by comparisons. -/
theorem comparing : Procedure.Comparing (sort (α := α) (ε := ε)) where
  sorts := by
    intro before lt items order decides
    cases sorting : sort before items with
    | ok sorted => exact ⟨sorted, rfl, (sort_ordered sorting).1, sort_ascending order decides sorting⟩
    | error fault =>
        obtain ⟨left, leftHeld, right, rightHeld, failed⟩ := sort_fails sorting
        rw [decides left leftHeld right rightHeld] at failed
        cases failed
  refines := sort_refines
  fails := sort_fails

end PartitionSort

end QueryResult
