import QueryResult.Proofs.OrderBy.StableSort

/-!
# Where sorting fails

Sorting only compares and exchanges rows, so that it fails only with the fault of
a comparison of two of the rows, or with that of the setting it reads. Nothing
is assumed of the comparisons; what is shown of a stage is that it keeps to the
items it is given, whether it succeeds or fails.
-/

set_option autoImplicit false

namespace QueryResult

/-- The computation answers something good or fails with a fault that is accounted for. -/
def Yields {ε β : Type} (accounted : ε → Prop) (good : β → Prop) : Except ε β → Prop
  | .ok answer => good answer
  | .error fault => accounted fault

namespace Yields

variable {ε β γ : Type} {accounted : ε → Prop} {good : β → Prop} {goodAfter : γ → Prop}

theorem bind {first : Except ε β} {second : β → Except ε γ}
    (yields : Yields accounted good first)
    (rest : ∀ answer, good answer → Yields accounted goodAfter (second answer)) :
    Yields accounted goodAfter (first >>= second) := by
  cases first with
  | error fault => exact yields
  | ok answer => exact rest answer yields

theorem mono {other : ε → Prop} {answer : Except ε β} (yields : Yields accounted good answer)
    (also : ∀ fault, accounted fault → other fault) : Yields other good answer := by
  cases answer with
  | error fault => exact also fault yields
  | ok answer => exact yields

theorem foldlM {step : β → γ → Except ε β}
    (each : ∀ state item, good state → Yields accounted good (step state item)) (items : List γ)
    {start : β} (initially : good start) : Yields accounted good (items.foldlM step start) := by
  induction items generalizing start with
  | nil => exact initially
  | cons item rest ih => exact (each start item initially).bind fun _ reached => ih reached

end Yields

/-! ## Selection -/

namespace HeapSelection

variable {α ε : Type} {before : α → α → Except ε Bool} {held : α → Prop} {accounted : ε → Prop}

/-- Comparing items that are held fails only with faults that are accounted for. -/
def Compares (before : α → α → Except ε Bool) (held : α → Prop) (accounted : ε → Prop) : Prop :=
  ∀ left right, held left → held right → Yields accounted (fun _ => True) (before left right)

/-- The items are held, all of them. -/
def AllHeld (held : α → Prop) (items : Array α) : Prop :=
  ∀ item ∈ items, held item

theorem AllHeld.swap {items : Array α} (allHeld : AllHeld held items) (first second : Nat) :
    AllHeld held (items.swapIfInBounds first second) :=
  fun item listed => allHeld item ((swapIfInBounds_perm items first second).mem_iff.mp listed)

theorem beforeAt_yields (compares : Compares before held accounted) {items : Array α}
    (allHeld : AllHeld held items) (left right : Nat) :
    Yields accounted (fun _ => True) (beforeAt before items left right) := by
  unfold beforeAt
  split
  · rename_i leftItem rightItem leftListed rightListed
    exact compares leftItem rightItem (allHeld _ (Array.mem_of_getElem? leftListed))
      (allHeld _ (Array.mem_of_getElem? rightListed))
  · trivial

theorem descend_yields (compares : Compares before held accounted) {items : Array α}
    (allHeld : AllHeld held items) (hole size : Nat) :
    Yields accounted (fun lowered => AllHeld held lowered.1) (descend before items hole size) := by
  fun_induction descend before items hole size with
  | case1 items hole _ ih =>
      exact (beforeAt_yields compares allHeld _ _).bind fun leftIsLater _ =>
        ih leftIsLater (allHeld.swap _ _)
  | case2 => exact allHeld.swap _ _
  | case3 => exact allHeld

theorem ascend_yields (compares : Compares before held accounted) {items : Array α}
    (allHeld : AllHeld held items) (top position : Nat) :
    Yields accounted (AllHeld held) (ascend before items top position) := by
  fun_induction ascend before items top position with
  | case1 items position _ ih =>
      refine (beforeAt_yields compares allHeld _ _).bind fun later _ => ?_
      split
      · exact ih (allHeld.swap _ _)
      · exact allHeld
  | case2 => exact allHeld

theorem sift_yields (compares : Compares before held accounted) {items : Array α}
    (allHeld : AllHeld held items) (top size : Nat) :
    Yields accounted (AllHeld held) (sift before items top size) :=
  (descend_yields compares allHeld top size).bind fun lowered loweredHeld =>
    ascend_yields compares loweredHeld top lowered.2

theorem heapify_yields (compares : Compares before held accounted) {items : Array α}
    (allHeld : AllHeld held items) (size tops : Nat) :
    Yields accounted (AllHeld held) (heapify before size tops items) := by
  induction tops generalizing items with
  | zero => exact allHeld
  | succ tops ih =>
      exact (sift_yields compares allHeld tops size).bind fun _ siftedHeld => ih siftedHeld

theorem offer_yields (compares : Compares before held accounted) {items : Array α}
    (allHeld : AllHeld held items) (size position : Nat) :
    Yields accounted (AllHeld held) (offer before size items position) := by
  refine (beforeAt_yields compares allHeld position 0).bind fun earlier _ => ?_
  split
  · exact sift_yields compares (allHeld.swap _ _) 0 size
  · exact allHeld

theorem unheap_yields (compares : Compares before held accounted) {items : Array α}
    (allHeld : AllHeld held items) (size : Nat) :
    Yields accounted (AllHeld held) (unheap before size items) := by
  fun_induction unheap before size items with
  | case1 => exact allHeld
  | case2 => exact allHeld
  | case3 last items ih =>
      exact (sift_yields compares (allHeld.swap 0 (last + 1)) 0 (last + 1)).bind
        fun sifted siftedHeld => ih sifted siftedHeld

theorem selectLeast_yields (compares : Compares before held accounted) {items : Array α}
    (allHeld : AllHeld held items) (count : Nat) :
    Yields accounted (AllHeld held) (selectLeast before count items) := by
  refine (heapify_yields compares allHeld count (count / 2)).bind fun heap heapHeld => ?_
  refine Yields.bind (Yields.foldlM (fun offered position offeredHeld =>
    offer_yields compares offeredHeld count position) _ heapHeld) fun chosen chosenHeld => ?_
  exact unheap_yields compares chosenHeld count

end HeapSelection

/-! ## Partitions -/

namespace PartitionSort

open HeapSelection

variable {α ε : Type} {before : α → α → Except ε Bool} {held : α → Prop} {accounted : ε → Prop}

theorem median_yields (compares : Compares before held accounted) {items : Array α}
    (allHeld : AllHeld held items) (left middle right : Nat) :
    Yields accounted (fun _ => True) (median before items left middle right) := by
  have asks := beforeAt_yields compares allHeld
  refine (asks left middle).bind fun _ _ => ?_
  split
  · refine (asks middle right).bind fun _ _ => ?_
    split
    · trivial
    · refine (asks left right).bind fun _ _ => ?_
      split <;> trivial
  · refine (asks left right).bind fun _ _ => ?_
    split
    · trivial
    · refine (asks middle right).bind fun _ _ => ?_
      split <;> trivial

theorem lastNotAfter_yields (compares : Compares before held accounted) {items : Array α}
    (allHeld : AllHeld held items) (pivot position : Nat) :
    Yields accounted (fun _ => True) (lastNotAfter before items pivot position) := by
  induction position with
  | zero => trivial
  | succ position ih =>
      refine (beforeAt_yields compares allHeld pivot position).bind fun after _ => ?_
      split
      · exact ih
      · trivial

theorem partition_yields (compares : Compares before held accounted) {items : Array α}
    (allHeld : AllHeld held items) (pivot low high : Nat) :
    Yields accounted (fun parted => AllHeld held parted.1)
      (partition before pivot items low high) := by
  fun_induction partition before pivot items low high with
  | case1 items low high _ further exchanged =>
      refine (beforeAt_yields compares allHeld low pivot).bind fun earlier _ => ?_
      split
      · exact further allHeld
      · refine (lastNotAfter_yields compares allHeld pivot high).bind fun last _ => ?_
        split
        · exact exchanged last (allHeld.swap _ _)
        · exact allHeld
  | case2 => exact allHeld

theorem split_yields (compares : Compares before held accounted) {items : Array α}
    (allHeld : AllHeld held items) (first stop : Nat) :
    Yields accounted (fun parted => AllHeld held parted.1) (split before items first stop) :=
  (median_yields compares allHeld _ _ _).bind fun pivot _ =>
    partition_yields compares (allHeld.swap first pivot) first (first + 1) stop

theorem heapSortRange_yields (compares : Compares before held accounted) {items : Array α}
    (allHeld : AllHeld held items) (first stop : Nat) :
    Yields accounted (AllHeld held) (heapSortRange before items first stop) := by
  have part : ∀ first stop, AllHeld held (items.extract first stop) := by
    intro first stop item listed
    obtain ⟨position, _, rfl⟩ := Array.mem_extract_iff_getElem.mp listed
    exact allHeld _ (Array.getElem_mem _)
  refine (selectLeast_yields compares (part first stop) (stop - first)).bind fun range rangeHeld => ?_
  intro item listed
  rcases Array.mem_append.mp listed with ahead | behind
  · rcases Array.mem_append.mp ahead with ahead | inRange
    · exact part 0 first item ahead
    · exact rangeHeld item inRange
  · exact part stop items.size item behind

theorem divide_yields (compares : Compares before held accounted) (depth : Nat) {items : Array α}
    (allHeld : AllHeld held items) (first stop : Nat) :
    Yields accounted (AllHeld held) (divide before depth items first stop) := by
  induction depth generalizing items first stop with
  | zero =>
      unfold divide
      split
      · exact allHeld
      · exact heapSortRange_yields compares allHeld first stop
  | succ depth ih =>
      unfold divide
      split
      · exact allHeld
      · refine (split_yields compares allHeld first stop).bind fun parted partedHeld => ?_
        exact (ih partedHeld parted.2 stop).bind fun _ dividedHeld => ih dividedHeld first parted.2

theorem moveToFront_held (position : Nat) {items : Array α} (allHeld : AllHeld held items) :
    AllHeld held (moveToFront position items) := by
  induction position generalizing items with
  | zero => exact allHeld
  | succ position ih => exact ih (allHeld.swap _ _)

theorem moveForward_yields (compares : Compares before held accounted) (position : Nat)
    {items : Array α} (allHeld : AllHeld held items) :
    Yields accounted (AllHeld held) (moveForward before position items) := by
  induction position generalizing items with
  | zero => exact allHeld
  | succ position ih =>
      refine (beforeAt_yields compares allHeld _ _).bind fun earlier _ => ?_
      split
      · exact ih (allHeld.swap _ _)
      · exact allHeld

theorem place_yields (compares : Compares before held accounted) {items : Array α}
    (allHeld : AllHeld held items) (position : Nat) :
    Yields accounted (AllHeld held) (place before items position) := by
  refine (beforeAt_yields compares allHeld position 0).bind fun earlier _ => ?_
  split
  · exact moveToFront_held position allHeld
  · exact moveForward_yields compares position allHeld

theorem sort_yields (compares : Compares before held accounted) {items : Array α}
    (allHeld : AllHeld held items) : Yields accounted (AllHeld held) (sort before items) := by
  refine (divide_yields compares _ allHeld 0 items.size).bind fun divided dividedHeld => ?_
  refine Yields.bind (Yields.foldlM (fun placed position placedHeld =>
    place_yields compares placedHeld position) _ dividedHeld) fun started startedHeld => ?_
  exact Yields.foldlM (fun placed position placedHeld =>
    moveForward_yields compares position placedHeld) _ startedHeld

end PartitionSort

/-! ## Rows -/

namespace OrderBy

variable {order : OrderBy} {rows : List Row}

/-- Comparing two of the rows ends with the fault. -/
def MetBy (order : OrderBy) (rows : List Row) (fault : Fault) : Prop :=
  ∃ left ∈ rows, ∃ right ∈ rows, order.compare left right = .error fault

theorem comesBefore_yields (order : OrderBy) (rows : List Row) :
    HeapSelection.Compares order.comesBefore (fun tagged => tagged.1 ∈ rows)
      (order.MetBy rows) := by
  intro left right leftHeld rightHeld
  unfold comesBefore
  cases compared : order.compare left.1 right.1 with
  | error fault => exact ⟨left.1, leftHeld, right.1, rightHeld, compared⟩
  | ok outcome => cases outcome <;> trivial

theorem allHeld_zipIdx (rows : List Row) :
    HeapSelection.AllHeld (fun tagged => tagged.1 ∈ rows) rows.zipIdx.toArray :=
  fun _ listed => fst_mem_of_mem_zipIdx (List.mem_toArray.mp listed)

theorem checkNeighbours_yields {arrangement : List Row} (within : ∀ row ∈ arrangement, row ∈ rows) :
    Yields (order.MetBy rows) (fun _ => True) (order.checkNeighbours arrangement) := by
  induction arrangement with
  | nil => trivial
  | cons row rest ih =>
      cases rest with
      | nil => trivial
      | cons next rest =>
          unfold checkNeighbours
          split
          · exact ih fun other listed => within other (.tail _ listed)
          · rename_i fault compared
            exact ⟨row, within row (by simp), next, within next (by simp), compared⟩

theorem firstFault_met {otherwise : Fault} (met : order.MetBy rows otherwise) :
    order.MetBy rows (order.firstFault rows otherwise) := by
  have yields := PartitionSort.sort_yields (order.comesBefore_yields rows) (allHeld_zipIdx rows)
  unfold firstFault
  split
  · rename_i fault failed
    rwa [failed] at yields
  · exact met

theorem sorted_yields (order : OrderBy) (rows : List Row) :
    Yields (order.MetBy rows) (fun _ => True) (order.sorted rows) := by
  have checked : Yields (order.MetBy rows) (fun _ => True)
      (order.checkNeighbours (rows.mergeSort order.notAfter)) :=
    checkNeighbours_yields fun row listed => (List.mergeSort_perm rows _).mem_iff.mp listed
  unfold sorted
  dsimp only
  split
  · trivial
  · rename_i fault failed
    rw [failed] at checked
    exact firstFault_met checked

theorem leastFirst_yields (order : OrderBy) (count : Nat) (rows : List Row) :
    Yields (order.MetBy rows) (fun _ => True) (order.leastFirst count rows) :=
  (HeapSelection.selectLeast_yields (order.comesBefore_yields rows) (allHeld_zipIdx rows)
    count).bind fun _ _ => trivial

/-- Rows are not sorted only if the setting cannot be read or two of them cannot be compared. -/
theorem sortLeading_yields (order : OrderBy) (settings : Settings) (count : Nat)
    (rows : List Row) :
    Yields
      (fun fault => settings.integer .parallelSortMinRows = .error fault ∨ order.MetBy rows fault)
      (fun _ => True) (order.sortLeading settings count rows) := by
  unfold sortLeading
  split
  · trivial
  · split
    · rename_i fault unreadable
      exact .inl unreadable
    · split
      · exact Yields.bind ((order.leastFirst_yields count rows).mono fun _ => Or.inr)
          fun _ _ => trivial
      · exact Yields.bind ((order.sorted_yields rows).mono fun _ => Or.inr) fun _ _ => trivial

theorem compareKeys_yields (keys : List SortKey) (left right : Row) :
    Yields
      (fun fault =>
        (∃ found expected, fault = .typeMismatch found expected .notComparable) ∨
          fault = .sortKeyOutsideRow ∧
            ∃ key ∈ keys, left.length ≤ key.column ∨ right.length ≤ key.column)
      (fun _ => True) (compareKeys keys left right) := by
  induction keys with
  | nil => trivial
  | cons key rest ih =>
      have own : Yields
          (fun fault =>
            (∃ found expected, fault = .typeMismatch found expected .notComparable) ∨
              fault = .sortKeyOutsideRow ∧ (left.length ≤ key.column ∨ right.length ≤ key.column))
          (fun _ => True) (key.compare left right) := by
        unfold SortKey.compare
        split
        · unfold SortKey.compareValues Value.compare
          split
          · trivial
          · trivial
          · trivial
          · split
            · trivial
            · exact .inl ⟨_, _, rfl⟩
        · rename_i outside
          refine .inr ⟨rfl, ?_⟩
          rcases Nat.lt_or_ge key.column left.length with leftWide | leftNarrow
          · rcases Nat.lt_or_ge key.column right.length with rightWide | rightNarrow
            · exact (outside _ _ (List.getElem?_eq_getElem leftWide)
                (List.getElem?_eq_getElem rightWide)).elim
            · exact .inr rightNarrow
          · exact .inl leftNarrow
      unfold compareKeys
      split
      · exact ih.mono fun fault => Or.imp_right fun ⟨same, other, listed, narrow⟩ =>
          ⟨same, other, .tail _ listed, narrow⟩
      · exact own.mono fun fault => Or.imp_right fun ⟨same, narrow⟩ =>
          ⟨same, key, List.mem_cons_self, narrow⟩

/-- Two rows cannot be compared if they have values of different types, or if one of them lacks the
column of a key. -/
theorem MetBy.cases {fault : Fault} (met : order.MetBy rows fault) :
    (∃ found expected, fault = .typeMismatch found expected .notComparable) ∨
      fault = .sortKeyOutsideRow ∧ ∃ key ∈ order.keys, ∃ row ∈ rows, row.length ≤ key.column := by
  obtain ⟨left, leftHeld, right, rightHeld, compared⟩ := met
  have yields := compareKeys_yields order.keys left right
  have compared : compareKeys order.keys left right = .error fault := compared
  rw [compared] at yields
  refine yields.imp_right fun ⟨same, key, listed, narrow⟩ => ⟨same, key, listed, ?_⟩
  rcases narrow with leftNarrow | rightNarrow
  · exact ⟨left, leftHeld, leftNarrow⟩
  · exact ⟨right, rightHeld, rightNarrow⟩

end OrderBy

end QueryResult
