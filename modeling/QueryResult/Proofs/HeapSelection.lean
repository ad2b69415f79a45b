import QueryResult.HeapSelection

/-!
# The selection of the least items

Items are compared here under a strict weak order that the comparison decides
on all of them, so no comparison fails. A *sinking* heap is in order except at
the hole that descends through it, a *rising* heap except between the hole that
ascends and its parent. `selectLeast_spec` composes the steps: the selection
succeeds, rearranges the items, and has the least ones in order at the front.
-/

set_option autoImplicit false

namespace QueryResult.HeapSelection

variable {α ε : Type} {before : α → α → Except ε Bool} {lt : α → α → Bool}

/-- A strict order for which "does not come after" is transitive. -/
structure StrictWeakOrder (lt : α → α → Bool) : Prop where
  asymm : ∀ {left right}, lt left right = true → lt right left = false
  trans : ∀ {first second third},
    lt second first = false → lt third second = false → lt third first = false

theorem StrictWeakOrder.irrefl (order : StrictWeakOrder lt) (item : α) : lt item item = false := by
  cases compared : lt item item with
  | false => rfl
  | true => exact compared ▸ order.asymm compared

/-- No comparison of two of the items fails, and its answer is that of `lt`. -/
def Decides (before : α → α → Except ε Bool) (lt : α → α → Bool) (items : Array α) : Prop :=
  ∀ left ∈ items, ∀ right ∈ items, before left right = .ok (lt left right)

theorem Decides.of_perm {items other : Array α} (decides : Decides before lt items)
    (rearranged : other.Perm items) : Decides before lt other := fun left leftHeld right rightHeld =>
  decides left (rearranged.mem_iff.mp leftHeld) right (rearranged.mem_iff.mp rightHeld)

/-!
## Items at positions
-/

/-- The item at one position does not come before the item at another. -/
def NotBefore (lt : α → α → Bool) (items : Array α) (left right : Nat) : Prop :=
  ∀ leftItem rightItem, items[left]? = some leftItem → items[right]? = some rightItem →
    lt leftItem rightItem = false

theorem NotBefore.refl (order : StrictWeakOrder lt) (items : Array α) (position : Nat) :
    NotBefore lt items position position := by
  intro left right leftFound rightFound
  obtain rfl : left = right := Option.some.inj (leftFound.symm.trans rightFound)
  exact order.irrefl left

theorem NotBefore.trans (order : StrictWeakOrder lt) {items : Array α} {first second third : Nat}
    (held : second < items.size) (later : NotBefore lt items first second)
    (latest : NotBefore lt items second third) : NotBefore lt items first third := by
  intro firstItem thirdItem firstFound thirdFound
  have secondFound : items[second]? = some items[second] := Array.getElem?_eq_getElem held
  exact order.trans (latest _ _ secondFound thirdFound) (later _ _ firstFound secondFound)

theorem NotBefore.of_same {items other : Array α} {left right left' right' : Nat}
    (leftSame : other[left']? = items[left]?) (rightSame : other[right']? = items[right]?)
    (kept : NotBefore lt items left right) : NotBefore lt other left' right' := by
  intro leftItem rightItem leftFound rightFound
  exact kept _ _ (leftSame ▸ leftFound) (rightSame ▸ rightFound)

theorem beforeAt_decided (order : StrictWeakOrder lt) {items : Array α}
    (decides : Decides before lt items) {left right : Nat} (leftHeld : left < items.size)
    (rightHeld : right < items.size) :
    (beforeAt before items left right = .ok true ∧ NotBefore lt items right left) ∨
      (beforeAt before items left right = .ok false ∧ NotBefore lt items left right) := by
  have leftFound : items[left]? = some items[left] := Array.getElem?_eq_getElem leftHeld
  have rightFound : items[right]? = some items[right] := Array.getElem?_eq_getElem rightHeld
  have compared := decides _ (Array.getElem_mem leftHeld) _ (Array.getElem_mem rightHeld)
  have answered : beforeAt before items left right = .ok (lt items[left] items[right]) := by
    simp only [beforeAt, leftFound, rightFound, compared]
  cases outcome : lt items[left] items[right] with
  | true =>
      refine .inl ⟨answered.trans (congrArg _ outcome), ?_⟩
      intro rightItem leftItem foundRight foundLeft
      cases rightFound.symm.trans foundRight
      cases leftFound.symm.trans foundLeft
      exact order.asymm outcome
  | false =>
      refine .inr ⟨answered.trans (congrArg _ outcome), ?_⟩
      intro leftItem rightItem foundLeft foundRight
      cases rightFound.symm.trans foundRight
      cases leftFound.symm.trans foundLeft
      exact outcome

/-- The position from which an item comes when two positions exchange their items. -/
def exchange (first second position : Nat) : Nat :=
  if position = first then second else if position = second then first else position

theorem exchange_left (first second : Nat) : exchange first second first = second := by
  simp [exchange]

theorem exchange_right (first second : Nat) : exchange first second second = first := by
  by_cases same : second = first <;> simp [exchange, same]

theorem exchange_of_ne {first second position : Nat} (notFirst : position ≠ first)
    (notSecond : position ≠ second) : exchange first second position = position := by
  simp [exchange, notFirst, notSecond]

theorem getElem?_swap {items : Array α} {first second : Nat} (firstHeld : first < items.size)
    (secondHeld : second < items.size) (position : Nat) :
    (items.swapIfInBounds first second)[position]? = items[exchange first second position]? := by
  by_cases held : position < items.size
  · rw [Array.getElem?_eq_getElem (by simpa using held), Array.getElem_swapIfInBounds]
    by_cases isFirst : position = first
    · subst isFirst
      simp [exchange, secondHeld]
    · by_cases isSecond : position = second
      · subst isSecond
        simp [exchange, isFirst, firstHeld]
      · simp [exchange, isFirst, isSecond, held]
  · have notFirst : position ≠ first := by omega
    have notSecond : position ≠ second := by omega
    rw [exchange_of_ne notFirst notSecond]
    simp [held]

theorem swap_perm {items : Array α} {first second : Nat} (firstHeld : first < items.size)
    (secondHeld : second < items.size) : (items.swapIfInBounds first second).Perm items := by
  simp only [Array.swapIfInBounds_def, firstHeld, secondHeld, dite_true]
  exact Array.swap_perm firstHeld secondHeld

theorem notBefore_swap {items : Array α} {first second left right left' right' : Nat}
    (firstHeld : first < items.size) (secondHeld : second < items.size)
    (leftFrom : exchange first second left' = left)
    (rightFrom : exchange first second right' = right) (kept : NotBefore lt items left right) :
    NotBefore lt (items.swapIfInBounds first second) left' right' :=
  kept.of_same (by rw [getElem?_swap firstHeld secondHeld, leftFrom])
    (by rw [getElem?_swap firstHeld secondHeld, rightFrom])

/-- The same items in other places, but only among the first `size` positions. -/
structure Rearranged (size : Nat) (items other : Array α) : Prop where
  perm : other.Perm items
  within : ∀ position, position < size → ∃ origin, origin < size ∧ other[position]? = items[origin]?
  beyond : ∀ position, size ≤ position → other[position]? = items[position]?

namespace Rearranged

theorem refl (size : Nat) (items : Array α) : Rearranged size items items :=
  ⟨.refl items, fun position small => ⟨position, small, rfl⟩, fun _ _ => rfl⟩

theorem trans {size : Nat} {items middle other : Array α} (first : Rearranged size items middle)
    (second : Rearranged size middle other) : Rearranged size items other := by
  refine ⟨second.perm.trans first.perm, ?_, ?_⟩
  · intro position small
    obtain ⟨between, betweenSmall, toMiddle⟩ := second.within position small
    obtain ⟨origin, originSmall, toItems⟩ := first.within between betweenSmall
    exact ⟨origin, originSmall, toMiddle.trans toItems⟩
  · intro position large
    exact (second.beyond position large).trans (first.beyond position large)

theorem mono {size larger : Nat} {items other : Array α} (le : size ≤ larger)
    (rearranged : Rearranged size items other) : Rearranged larger items other := by
  refine ⟨rearranged.perm, ?_, fun position large => rearranged.beyond position (by omega)⟩
  intro position small
  by_cases within : position < size
  · obtain ⟨origin, originSmall, same⟩ := rearranged.within position within
    exact ⟨origin, by omega, same⟩
  · exact ⟨position, small, rearranged.beyond position (by omega)⟩

theorem swap {size first second : Nat} {items : Array α} (firstSmall : first < size)
    (secondSmall : second < size) (fits : size ≤ items.size) :
    Rearranged size items (items.swapIfInBounds first second) := by
  refine ⟨swap_perm (by omega) (by omega), ?_, ?_⟩
  · intro position small
    refine ⟨exchange first second position, ?_, getElem?_swap (by omega) (by omega) position⟩
    unfold exchange
    split
    · exact secondSmall
    · split
      · exact firstSmall
      · exact small
  · intro position large
    rw [getElem?_swap (by omega) (by omega), exchange_of_ne (by omega) (by omega)]

theorem size_eq {size : Nat} {items other : Array α} (rearranged : Rearranged size items other) :
    other.size = items.size :=
  rearranged.perm.size_eq

/-- What does not come before any of the first items still does not after they were
rearranged. -/
theorem notBefore_first {size position : Nat} {items other : Array α} {late : Nat}
    (rearranged : Rearranged size items other) (beyond : size ≤ late) (small : position < size)
    (later : ∀ origin, origin < size → NotBefore lt items late origin) :
    NotBefore lt other late position := by
  obtain ⟨origin, originSmall, same⟩ := rearranged.within position small
  exact (later origin originSmall).of_same (rearranged.beyond late beyond) same

end Rearranged

/-!
## Heaps
-/

/-- Whether a position is one of the two children of another. -/
def IsChild (parent child : Nat) : Prop :=
  child = 2 * parent + 1 ∨ child = 2 * parent + 2

theorem IsChild.above {parent child : Nat} (isChild : IsChild parent child) : parent < child := by
  unfold IsChild at isChild
  omega

theorem IsChild.unique {parent other child : Nat} (isChild : IsChild parent child)
    (otherChild : IsChild other child) : parent = other := by
  unfold IsChild at isChild otherChild
  omega

theorem isChild_parent {child : Nat} (positive : 0 < child) : IsChild ((child - 1) / 2) child := by
  unfold IsChild
  omega

/-- A position in the part of a heap under `top`. -/
inductive Under (top : Nat) : Nat → Prop
  | top : Under top top
  | child {parent child : Nat} : Under top parent → IsChild parent child → Under top child

theorem Under.le {top position : Nat} (under : Under top position) : top ≤ position := by
  induction under with
  | top => exact Nat.le_refl top
  | child _ isChild ih => exact Nat.le_trans ih (Nat.le_of_lt isChild.above)

theorem Under.parent {top position : Nat} (under : Under top position) (lower : top < position) :
    Under top ((position - 1) / 2) := by
  cases under with
  | top => exact absurd lower (Nat.lt_irrefl top)
  | child parentUnder isChild =>
      rwa [← isChild.unique (isChild_parent (by omega))]

/-- From `top` on, no parent comes before one of its children. -/
def Heap (lt : α → α → Bool) (items : Array α) (top size : Nat) : Prop :=
  ∀ parent child, top ≤ parent → IsChild parent child → child < size →
    NotBefore lt items parent child

/-- A heap with a hole whose item may be out of order with its children and its parent. -/
structure Sinking (lt : α → α → Bool) (items : Array α) (top size hole : Nat) : Prop where
  apart : ∀ parent child, top ≤ parent → IsChild parent child → child < size → parent ≠ hole →
    child ≠ hole → NotBefore lt items parent child
  across : ∀ parent child, top ≤ parent → IsChild parent hole → IsChild hole child →
    child < size → NotBefore lt items parent child

/-- A heap with a hole whose item may be out of order with its parent. -/
structure Rising (lt : α → α → Bool) (items : Array α) (top size hole : Nat) : Prop where
  apart : ∀ parent child, top ≤ parent → IsChild parent child → child < size → child ≠ hole →
    NotBefore lt items parent child
  across : ∀ parent child, top ≤ parent → IsChild parent hole → IsChild hole child →
    child < size → NotBefore lt items parent child

theorem Heap.sinking {items : Array α} {top size : Nat} (heap : Heap lt items (top + 1) size) :
    Sinking lt items top size top := by
  constructor
  · intro parent child above isChild small notHole _
    exact heap parent child (by omega) isChild small
  · intro parent child above isChild
    exact absurd isChild.above (by omega)

/-- At a leaf there is nothing left to be out of order with below. -/
theorem Sinking.rising {items : Array α} {top size leaf : Nat}
    (sinking : Sinking lt items top size leaf) (childless : size ≤ 2 * leaf + 1) :
    Rising lt items top size leaf := by
  constructor
  · intro parent child above isChild small notHole
    refine sinking.apart parent child above isChild small ?_ notHole
    rintro rfl
    unfold IsChild at isChild
    omega
  · intro parent child _ _ isChild small
    unfold IsChild at isChild
    omega

/-- The hole exchanges its item with the later of its children. -/
theorem Sinking.descend {items : Array α} {top size hole child : Nat}
    (sinking : Sinking lt items top size hole) (above : top ≤ hole) (isChild : IsChild hole child)
    (small : child < size) (fits : size ≤ items.size)
    (latest : ∀ other, IsChild hole other → other < size → other ≠ child →
      NotBefore lt items child other) :
    Sinking lt (items.swapIfInBounds hole child) top size child := by
  have lower := isChild.above
  have holeHeld : hole < items.size := by omega
  have childHeld : child < items.size := by omega
  constructor
  · intro parent other aboveParent isOther otherSmall notChild otherNotChild
    by_cases atHole : parent = hole
    · subst atHole
      exact notBefore_swap holeHeld childHeld (exchange_left parent child)
        (exchange_of_ne (Nat.ne_of_gt isOther.above) otherNotChild)
        (latest other isOther otherSmall otherNotChild)
    · have parentStays : exchange hole child parent = parent := exchange_of_ne atHole notChild
      by_cases intoHole : other = hole
      · subst intoHole
        exact notBefore_swap holeHeld childHeld parentStays (exchange_left other child)
          (sinking.across parent child aboveParent isOther isChild small)
      · exact notBefore_swap holeHeld childHeld parentStays
          (exchange_of_ne intoHole otherNotChild)
          (sinking.apart parent other aboveParent isOther otherSmall atHole intoHole)
  · intro parent grandchild aboveParent isParent isGrandchild grandchildSmall
    have parentIsHole : parent = hole := isParent.unique isChild
    subst parentIsHole
    have lowest := isGrandchild.above
    exact notBefore_swap holeHeld childHeld (exchange_left parent child)
      (exchange_of_ne (by omega) (by omega))
      (sinking.apart child grandchild (by omega) isGrandchild grandchildSmall (by omega) (by omega))

/-- The hole exchanges its item with its parent, which comes before it. -/
theorem Rising.ascend (order : StrictWeakOrder lt) {items : Array α} {top size hole parent : Nat}
    (rising : Rising lt items top size hole) (isChild : IsChild parent hole) (above : top ≤ parent)
    (small : hole < size) (fits : size ≤ items.size) (later : NotBefore lt items hole parent) :
    Rising lt (items.swapIfInBounds hole parent) top size parent := by
  have lower := isChild.above
  have holeHeld : hole < items.size := by omega
  have parentHeld : parent < items.size := by omega
  constructor
  · intro upper child aboveUpper isUpper childSmall notParent
    by_cases atParent : upper = parent
    · subst atParent
      by_cases isHole : child = hole
      · subst isHole
        exact notBefore_swap holeHeld parentHeld (exchange_right child upper)
          (exchange_left child upper) later
      · exact notBefore_swap holeHeld parentHeld (exchange_right hole upper)
          (exchange_of_ne isHole notParent)
          (later.trans order parentHeld
            (rising.apart upper child aboveUpper isUpper childSmall isHole))
    · by_cases atHole : upper = hole
      · subst atHole
        have childBelow := isUpper.above
        exact notBefore_swap holeHeld parentHeld (exchange_left upper parent)
          (exchange_of_ne (by omega) notParent)
          (rising.across parent child above isChild isUpper childSmall)
      · have notHole : child ≠ hole := by
          rintro rfl
          exact atParent (isUpper.unique isChild)
        exact notBefore_swap holeHeld parentHeld (exchange_of_ne atHole atParent)
          (exchange_of_ne notHole notParent)
          (rising.apart upper child aboveUpper isUpper childSmall notHole)
  · intro upper child aboveUpper isUpper isLower childSmall
    have upperAbove := isUpper.above
    have upperStays : exchange hole parent upper = upper :=
      exchange_of_ne (by omega) (by omega)
    have parentInOrder : NotBefore lt items upper parent :=
      rising.apart upper parent aboveUpper isUpper (by omega) (by omega)
    by_cases isHole : child = hole
    · subst isHole
      exact notBefore_swap holeHeld parentHeld upperStays (exchange_left child parent) parentInOrder
    · have childBelow := isLower.above
      exact notBefore_swap holeHeld parentHeld upperStays (exchange_of_ne isHole (by omega))
        (parentInOrder.trans order parentHeld
          (rising.apart parent child above isLower childSmall isHole))

/-- The first item of a heap is one of its latest. -/
theorem Heap.first_latest (order : StrictWeakOrder lt) {items : Array α} {size : Nat}
    (heap : Heap lt items 0 size) (fits : size ≤ items.size) (position : Nat)
    (small : position < size) : NotBefore lt items 0 position := by
  induction position using Nat.strongRecOn with
  | ind position ih =>
      by_cases first : position = 0
      · subst first
        exact .refl order items 0
      · have isChild := isChild_parent (Nat.pos_of_ne_zero first)
        have above := isChild.above
        exact (ih _ above (by omega)).trans order (by omega)
          (heap _ position (Nat.zero_le _) isChild small)

/-!
## Sifting
-/

theorem descend_spec (order : StrictWeakOrder lt) {items : Array α} {hole size top : Nat}
    (decides : Decides before lt items) (fits : size ≤ items.size) (small : hole < size)
    (under : Under top hole) (sinking : Sinking lt items top size hole) :
    ∃ lowered leaf, descend before items hole size = .ok (lowered, leaf) ∧
      Rearranged size items lowered ∧ leaf < size ∧ Under top leaf ∧
      Rising lt lowered top size leaf := by
  induction remaining : size - hole using Nat.strongRecOn generalizing items hole with
  | ind measure ih =>
      rw [descend]
      by_cases both : 2 * hole + 2 < size
      · -- Both children are there; the later one takes the place of the hole's item.
        have step : ∀ child, IsChild hole child → child < size →
            (∀ other, IsChild hole other → other < size → other ≠ child →
              NotBefore lt items child other) →
            ∃ lowered leaf, descend before (items.swapIfInBounds hole child) child size =
                .ok (lowered, leaf) ∧
              Rearranged size items lowered ∧ leaf < size ∧ Under top leaf ∧
              Rising lt lowered top size leaf := by
          intro child isChild childSmall latest
          have moved : Rearranged size items (items.swapIfInBounds hole child) :=
            .swap small childSmall fits
          have lower := isChild.above
          obtain ⟨lowered, leaf, descended, rearranged, rest⟩ :=
            ih (size - child) (by omega) (decides.of_perm moved.perm)
              (by rw [moved.size_eq]; exact fits) childSmall (under.child isChild)
              (sinking.descend under.le isChild childSmall fits latest) rfl
          exact ⟨lowered, leaf, descended, moved.trans rearranged, rest⟩
        simp only [both, if_true]
        have leftHeld : 2 * hole + 1 < items.size := by omega
        have rightHeld : 2 * hole + 2 < items.size := by omega
        rcases beforeAt_decided order decides rightHeld leftHeld with
          ⟨answered, latest⟩ | ⟨answered, latest⟩
        · simp only [answered, bind, Except.bind, if_true]
          refine step (2 * hole + 1) (.inl rfl) (by omega) ?_
          intro other isOther _ notLeft
          rcases isOther with rfl | rfl
          · exact absurd rfl notLeft
          · exact latest
        · simp only [answered, bind, Except.bind, Bool.false_eq_true, if_false]
          refine step (2 * hole + 2) (.inr rfl) both ?_
          intro other isOther _ notRight
          rcases isOther with rfl | rfl
          · exact latest
          · exact absurd rfl notRight
      · by_cases one : 2 * hole + 2 = size
        · rw [if_neg both, if_pos one]
          have leftSmall : 2 * hole + 1 < size := by omega
          have leftIsChild : IsChild hole (2 * hole + 1) := .inl rfl
          refine ⟨_, _, rfl, .swap small leftSmall fits, leftSmall, under.child leftIsChild, ?_⟩
          refine (sinking.descend under.le leftIsChild leftSmall fits ?_).rising (by omega)
          intro other isOther otherSmall notLeft
          rcases isOther with rfl | rfl
          · exact absurd rfl notLeft
          · exact absurd one (Nat.ne_of_lt otherSmall)
        · rw [if_neg both, if_neg one]
          exact ⟨items, hole, rfl, .refl size items, small, under, sinking.rising (by omega)⟩

theorem ascend_spec (order : StrictWeakOrder lt) {items : Array α} {position size top : Nat}
    (decides : Decides before lt items) (fits : size ≤ items.size) (small : position < size)
    (under : Under top position) (rising : Rising lt items top size position) :
    ∃ raised, ascend before items top position = .ok raised ∧ Rearranged size items raised ∧
      Heap lt raised top size := by
  induction position using Nat.strongRecOn generalizing items with
  | ind position ih =>
      rw [ascend]
      by_cases lower : top < position
      · have isChild := isChild_parent (Nat.zero_lt_of_lt lower)
        have parentUnder := under.parent lower
        generalize (position - 1) / 2 = parent at isChild parentUnder ⊢
        have parentAbove := isChild.above
        simp only [lower, if_true]
        have parentHeld : parent < items.size := by omega
        have positionHeld : position < items.size := by omega
        rcases beforeAt_decided order decides parentHeld positionHeld with
          ⟨answered, later⟩ | ⟨answered, inOrder⟩
        · simp only [answered, bind, Except.bind, if_true]
          have moved : Rearranged size items (items.swapIfInBounds position parent) :=
            .swap small (by omega) fits
          obtain ⟨raised, ascended, rearranged, heap⟩ :=
            ih parent parentAbove (decides.of_perm moved.perm)
              (by rw [moved.size_eq]; exact fits) (by omega) parentUnder
              (rising.ascend order isChild parentUnder.le small fits later)
          exact ⟨raised, ascended, moved.trans rearranged, heap⟩
        · simp only [answered, bind, Except.bind, Bool.false_eq_true, if_false]
          refine ⟨items, rfl, .refl size items, ?_⟩
          intro upper child above isUpper childSmall
          by_cases atHole : child = position
          · subst atHole
            rw [isUpper.unique isChild]
            exact inOrder
          · exact rising.apart upper child above isUpper childSmall atHole
      · simp only [lower, if_false]
        refine ⟨items, rfl, .refl size items, ?_⟩
        intro parent child above isChild childSmall
        have childBelow := isChild.above
        exact rising.apart parent child above isChild childSmall (by omega)

theorem sift_spec (order : StrictWeakOrder lt) {items : Array α} {top size : Nat}
    (decides : Decides before lt items) (fits : size ≤ items.size) (small : top < size)
    (heap : Heap lt items (top + 1) size) :
    ∃ sifted, sift before items top size = .ok sifted ∧ Rearranged size items sifted ∧
      Heap lt sifted top size := by
  obtain ⟨lowered, leaf, descended, lowering, leafSmall, under, rising⟩ :=
    descend_spec order decides fits small .top heap.sinking
  obtain ⟨raised, ascended, raising, ordered⟩ :=
    ascend_spec order (decides.of_perm lowering.perm) (by rw [lowering.size_eq]; exact fits)
      leafSmall under rising
  refine ⟨raised, ?_, lowering.trans raising, ordered⟩
  simp only [sift, descended, bind, Except.bind, ascended]

theorem heapify_spec (order : StrictWeakOrder lt) {items : Array α} {size tops : Nat}
    (decides : Decides before lt items) (fits : size ≤ items.size) (within : tops ≤ size)
    (heap : Heap lt items tops size) :
    ∃ heaped, heapify before size tops items = .ok heaped ∧ Rearranged size items heaped ∧
      Heap lt heaped 0 size := by
  induction tops generalizing items with
  | zero => exact ⟨items, rfl, .refl size items, heap⟩
  | succ top ih =>
      obtain ⟨sifted, accepted, sifting, ordered⟩ := sift_spec order decides fits within heap
      obtain ⟨heaped, rest, rearranged, whole⟩ :=
        ih (decides.of_perm sifting.perm) (by rw [sifting.size_eq]; exact fits) (by omega) ordered
      refine ⟨heaped, ?_, sifting.trans rearranged, whole⟩
      simp only [heapify, accepted, bind, Except.bind, rest]

/-!
## Selection
-/

/-- A later item takes the place of the heap's first if it comes before it. After that it is not
among the items that come before the heap's first, and no other item has become one. -/
theorem offer_spec (order : StrictWeakOrder lt) {items : Array α} {size position : Nat}
    (decides : Decides before lt items) (positive : 0 < size) (later : size ≤ position)
    (held : position < items.size) (heap : Heap lt items 0 size) :
    ∃ offered, offer before size items position = .ok offered ∧ offered.Perm items ∧
      Heap lt offered 0 size ∧ NotBefore lt offered position 0 ∧
      ∀ other, size ≤ other → NotBefore lt items other 0 → NotBefore lt offered other 0 := by
  have firstHeld : 0 < items.size := by omega
  have latest := heap.first_latest order (by omega)
  rcases beforeAt_decided order decides held firstHeld with
    ⟨answered, replaced⟩ | ⟨answered, stays⟩
  · have swapped : (items.swapIfInBounds 0 position).Perm items := swap_perm firstHeld held
    have lowerHeap : Heap lt (items.swapIfInBounds 0 position) 1 size := by
      intro parent child above isChild small
      have lower := isChild.above
      exact notBefore_swap firstHeld held (exchange_of_ne (by omega) (by omega))
        (exchange_of_ne (by omega) (by omega)) (heap parent child (by omega) isChild small)
    -- The old first item, now at `position`, comes before nothing in the heap.
    have oldFirst : ∀ origin, origin < size →
        NotBefore lt (items.swapIfInBounds 0 position) position origin := by
      intro origin small
      by_cases first : origin = 0
      · subst first
        exact notBefore_swap firstHeld held (exchange_right 0 position)
          (exchange_left 0 position) replaced
      · exact notBefore_swap firstHeld held (exchange_right 0 position)
          (exchange_of_ne first (by omega)) (latest origin small)
    obtain ⟨sifted, accepted, sifting, ordered⟩ :=
      sift_spec order (decides.of_perm swapped) (by rw [swapped.size_eq]; omega) positive lowerHeap
    have behind := sifting.notBefore_first later positive oldFirst
    refine ⟨sifted, ?_, sifting.perm.trans swapped, ordered, behind, ?_⟩
    · simp only [offer, answered, bind, Except.bind, if_true, accepted]
    · intro other beyond notBefore
      by_cases same : other = position
      · subst same
        exact behind
      · have kept : sifted[other]? = items[other]? := by
          rw [sifting.beyond other beyond, getElem?_swap firstHeld held,
            exchange_of_ne (by omega) same]
        have moved : sifted[position]? = items[0]? := by
          rw [sifting.beyond position later, getElem?_swap firstHeld held, exchange_right]
        have sizes : sifted.size = items.size := (sifting.perm.trans swapped).size_eq
        exact (notBefore.of_same kept moved).trans order (by omega) behind
  · refine ⟨items, ?_, .refl items, heap, stays, fun _ _ notBefore => notBefore⟩
    simp only [offer, answered, bind, Except.bind, Bool.false_eq_true, if_false]
    rfl

/-- After items from `start` on were offered in turn, none of the items behind the heap comes
before its first. -/
theorem offers_spec (order : StrictWeakOrder lt) {items : Array α} {size start count : Nat}
    (decides : Decides before lt items) (positive : 0 < size) (later : size ≤ start)
    (last : start + count = items.size) (heap : Heap lt items 0 size)
    (behind : ∀ other, size ≤ other → other < start → NotBefore lt items other 0) :
    ∃ chosen, (List.range' start count).foldlM (offer before size) items = .ok chosen ∧
      chosen.Perm items ∧ Heap lt chosen 0 size ∧
      ∀ other, size ≤ other → other < items.size → NotBefore lt chosen other 0 := by
  induction count generalizing items start with
  | zero => exact ⟨items, rfl, .refl items, heap, fun other beyond held =>
      behind other beyond (by omega)⟩
  | succ count ih =>
      obtain ⟨offered, accepted, rearranged, offeredHeap, offeredBehind, othersBehind⟩ :=
        offer_spec order decides positive later (by omega) heap
      have sizes := rearranged.size_eq
      have nextBehind : ∀ other, size ≤ other → other < start + 1 →
          NotBefore lt offered other 0 := by
        intro other beyond small
        by_cases same : other = start
        · subst same
          exact offeredBehind
        · exact othersBehind other beyond (behind other beyond (by omega))
      obtain ⟨chosen, rest, chosenPerm, chosenHeap, chosenBehind⟩ :=
        ih (decides.of_perm rearranged) (by omega) (by omega) offeredHeap nextBehind
      refine ⟨chosen, ?_, chosenPerm.trans rearranged, chosenHeap, fun other beyond held =>
        chosenBehind other beyond (by omega)⟩
      simp only [List.range'_succ, List.foldlM_cons, accepted, bind, Except.bind]
      exact rest

theorem unheap_spec (order : StrictWeakOrder lt) {items : Array α} {size : Nat}
    (decides : Decides before lt items) (fits : size ≤ items.size) (heap : Heap lt items 0 size) :
    ∃ ordered, unheap before size items = .ok ordered ∧ Rearranged size items ordered ∧
      ∀ earlier later, earlier < later → later < size → NotBefore lt ordered later earlier := by
  induction size using Nat.strongRecOn generalizing items with
  | ind size ih =>
      match size with
      | 0 => exact ⟨items, rfl, .refl 0 items, fun _ _ _ small => absurd small (Nat.not_lt_zero _)⟩
      | 1 => exact ⟨items, rfl, .refl 1 items, fun _ _ _ _ => by omega⟩
      | last + 2 =>
          have firstHeld : 0 < items.size := by omega
          have lastHeld : last + 1 < items.size := by omega
          have latest := heap.first_latest order fits
          have swapping : Rearranged (last + 2) items (items.swapIfInBounds 0 (last + 1)) :=
            .swap (by omega) (by omega) fits
          have smaller : Heap lt (items.swapIfInBounds 0 (last + 1)) 1 (last + 1) := by
            intro parent child above isChild small
            have lower := isChild.above
            exact notBefore_swap firstHeld lastHeld (exchange_of_ne (by omega) (by omega))
              (exchange_of_ne (by omega) (by omega))
              (heap parent child (by omega) isChild (by omega))
          -- The heap's first item is in its final place.
          have settled : ∀ origin, origin < last + 1 →
              NotBefore lt (items.swapIfInBounds 0 (last + 1)) (last + 1) origin := by
            intro origin small
            refine notBefore_swap firstHeld lastHeld (exchange_right 0 (last + 1)) rfl ?_
            refine latest _ ?_
            unfold exchange
            split
            · omega
            · split <;> omega
          obtain ⟨sifted, accepted, sifting, ordered⟩ :=
            sift_spec order (decides.of_perm swapping.perm) (by rw [swapping.size_eq]; omega)
              (by omega) smaller
          have siftedSize := sifting.size_eq.trans swapping.size_eq
          obtain ⟨final, rest, finishing, ascending⟩ :=
            ih (last + 1) (by omega) (decides.of_perm (sifting.perm.trans swapping.perm))
              (by omega) ordered
          have together := sifting.trans finishing
          refine ⟨final, ?_, swapping.trans (together.mono (by omega)), ?_⟩
          · simp only [unheap, accepted, bind, Except.bind, rest]
          · intro earlier later before small
            by_cases isLast : later = last + 1
            · subst isLast
              exact together.notBefore_first (Nat.le_refl _) before settled
            · exact ascending earlier later before (by omega)

/-- The selection succeeds and puts the `count` least items in order at the front: none of them
comes before an earlier one of them, and none of the others comes before any of them. -/
theorem selectLeast_spec (order : StrictWeakOrder lt) {items : Array α} {count : Nat}
    (decides : Decides before lt items) (positive : 0 < count) (fits : count ≤ items.size) :
    ∃ selected, selectLeast before count items = .ok selected ∧ selected.Perm items ∧
      ∀ earlier later, earlier < later → earlier < count → later < items.size →
        NotBefore lt selected later earlier := by
  have childless : Heap lt items (count / 2) count := by
    intro parent child above isChild small
    unfold IsChild at isChild
    omega
  obtain ⟨heaped, heapAccepted, heaping, heap⟩ :=
    heapify_spec order decides fits (Nat.div_le_self count 2) childless
  have heapedSize := heaping.size_eq
  have whole : count + (items.size - count) = heaped.size := by omega
  obtain ⟨chosen, chosenAccepted, choosing, chosenHeap, behind⟩ :=
    offers_spec order (decides.of_perm heaping.perm) positive (Nat.le_refl count) whole heap
      (fun other beyond small => absurd small (Nat.not_lt.mpr beyond))
  have chosenSize := choosing.size_eq.trans heapedSize
  obtain ⟨selected, selectedAccepted, finishing, ascending⟩ :=
    unheap_spec order (decides.of_perm (choosing.trans heaping.perm)) (by omega) chosenHeap
  have latest := chosenHeap.first_latest order (by omega)
  refine ⟨selected, ?_, finishing.perm.trans (choosing.trans heaping.perm), ?_⟩
  · simp only [selectLeast, heapAccepted, bind, Except.bind, chosenAccepted, selectedAccepted]
  · intro earlier later before least held
    by_cases within : later < count
    · exact ascending earlier later before within
    · refine finishing.notBefore_first (by omega) least ?_
      intro origin small
      exact (behind later (by omega) (by omega)).trans order (by omega) (latest origin small)

/-!
## Comparisons that fail

Nothing is assumed of the comparisons here. A selection only exchanges items.
-/

theorem bind_eq_ok {β γ : Type} {first : Except ε β} {second : β → Except ε γ} {result : γ}
    (accepted : first >>= second = .ok result) :
    ∃ middle, first = .ok middle ∧ second middle = .ok result := by
  cases first with
  | error fault => cases accepted
  | ok middle => exact ⟨middle, rfl, accepted⟩

theorem swapIfInBounds_perm (items : Array α) (first second : Nat) :
    (items.swapIfInBounds first second).Perm items := by
  rw [Array.swapIfInBounds_def]
  split
  · split
    · exact Array.swap_perm _ _
    · exact .refl _
  · exact .refl _

theorem descend_perm {items lowered : Array α} {hole size leaf : Nat}
    (accepted : descend before items hole size = .ok (lowered, leaf)) : lowered.Perm items := by
  induction remaining : size - hole using Nat.strongRecOn generalizing items hole with
  | ind measure ih =>
      rw [descend] at accepted
      split at accepted
      · obtain ⟨leftIsLater, _, descended⟩ := bind_eq_ok accepted
        refine (ih _ ?_ descended rfl).trans (swapIfInBounds_perm _ _ _)
        split <;> omega
      · split at accepted
        · cases accepted
          exact swapIfInBounds_perm _ _ _
        · cases accepted
          exact .refl _

theorem ascend_perm {items raised : Array α} {top position : Nat}
    (accepted : ascend before items top position = .ok raised) : raised.Perm items := by
  induction position using Nat.strongRecOn generalizing items with
  | ind position ih =>
      rw [ascend] at accepted
      split at accepted
      · obtain ⟨later, _, ascended⟩ := bind_eq_ok accepted
        split at ascended
        · exact (ih _ (by omega) ascended).trans (swapIfInBounds_perm _ _ _)
        · cases ascended
          exact .refl _
      · cases accepted
        exact .refl _

theorem sift_perm {items sifted : Array α} {top size : Nat}
    (accepted : sift before items top size = .ok sifted) : sifted.Perm items := by
  obtain ⟨⟨lowered, leaf⟩, descended, ascended⟩ := bind_eq_ok accepted
  exact (ascend_perm ascended).trans (descend_perm descended)

theorem heapify_perm {items heap : Array α} {size tops : Nat}
    (accepted : heapify before size tops items = .ok heap) : heap.Perm items := by
  induction tops generalizing items with
  | zero =>
      cases accepted
      exact .refl _
  | succ tops ih =>
      obtain ⟨sifted, sifting, rest⟩ := bind_eq_ok accepted
      exact (ih rest).trans (sift_perm sifting)

theorem offer_perm {items offered : Array α} {size position : Nat}
    (accepted : offer before size items position = .ok offered) : offered.Perm items := by
  obtain ⟨earlier, _, rest⟩ := bind_eq_ok accepted
  split at rest
  · exact (sift_perm rest).trans (swapIfInBounds_perm _ _ _)
  · cases rest
    exact .refl _

theorem offers_perm {positions : List Nat} {items chosen : Array α} {size : Nat}
    (accepted : positions.foldlM (offer before size) items = .ok chosen) : chosen.Perm items := by
  induction positions generalizing items with
  | nil =>
      cases accepted
      exact .refl _
  | cons position positions ih =>
      rw [List.foldlM_cons] at accepted
      obtain ⟨offered, offering, rest⟩ := bind_eq_ok accepted
      exact (ih rest).trans (offer_perm offering)

theorem unheap_perm {items ordered : Array α} {size : Nat}
    (accepted : unheap before size items = .ok ordered) : ordered.Perm items := by
  induction size using Nat.strongRecOn generalizing items with
  | ind size ih =>
      match size with
      | 0 =>
          cases accepted
          exact .refl _
      | 1 =>
          cases accepted
          exact .refl _
      | last + 2 =>
          obtain ⟨sifted, sifting, rest⟩ := bind_eq_ok accepted
          exact (ih (last + 1) (by omega) rest).trans
            ((sift_perm sifting).trans (swapIfInBounds_perm _ _ _))

/-- A selection that succeeds has all items of the input, whatever the comparisons answered. -/
theorem selectLeast_perm {items selected : Array α} {count : Nat}
    (accepted : selectLeast before count items = .ok selected) : selected.Perm items := by
  obtain ⟨heap, heaping, rest⟩ := bind_eq_ok accepted
  obtain ⟨chosen, choosing, finishing⟩ := bind_eq_ok rest
  exact (unheap_perm finishing).trans ((offers_perm choosing).trans (heapify_perm heaping))

end QueryResult.HeapSelection
