/-!
# Search trees by hash

A hash tree keeps lists of items under 64-bit hashes, in a search tree ordered
by the hashes. Hashes of different items are spread evenly, which keeps the tree
shallow without any balancing.

The tree is a finite map from hashes to buckets: `bucket_setBucket_self` and
`bucket_setBucket_of_ne` say what replacing a bucket does to the map, and
`exists_toList_perm` says what it does to the items as a whole.
-/

set_option autoImplicit false

namespace QueryResult

/-- Lists of items under hashes. -/
inductive HashTree (α : Type)
  | leaf
  | node (left : HashTree α) (hash : UInt64) (items : List α) (right : HashTree α)
  deriving DecidableEq

namespace HashTree

variable {α : Type}

/-- All items of a tree. -/
def toList : HashTree α → List α
  | .leaf => []
  | .node left _ items right => left.toList ++ (items ++ right.toList)

/-- The items under a hash. -/
def bucket (hash : UInt64) : HashTree α → List α
  | .leaf => []
  | .node left own items right =>
      if hash < own then left.bucket hash
      else if own < hash then right.bucket hash
      else items

/-- The tree with other items under a hash. -/
def setBucket (hash : UInt64) (items : List α) : HashTree α → HashTree α
  | .leaf => .node .leaf hash items .leaf
  | .node left own present right =>
      if hash < own then .node (left.setBucket hash items) own present right
      else if own < hash then .node left own present (right.setBucket hash items)
      else .node left own items right

/-- The tree with every item changed, each under its old hash. -/
def map (change : α → α) : HashTree α → HashTree α
  | .leaf => .leaf
  | .node left own items right => .node (left.map change) own (items.map change) (right.map change)

theorem bucket_setBucket_self (tree : HashTree α) (hash : UInt64) (items : List α) :
    (tree.setBucket hash items).bucket hash = items := by
  induction tree with
  | leaf => simp [setBucket, bucket]
  | node left own present right leftIH rightIH =>
      by_cases before : hash < own
      · simpa [setBucket, bucket, before] using leftIH
      · by_cases after : own < hash
        · simpa [setBucket, bucket, before, after] using rightIH
        · simp [setBucket, bucket, before, after]

theorem bucket_setBucket_of_ne (tree : HashTree α) {hash other : UInt64} (items : List α)
    (different : other ≠ hash) :
    (tree.setBucket hash items).bucket other = tree.bucket other := by
  induction tree with
  | leaf =>
      by_cases before : other < hash
      · simp [setBucket, bucket, before]
      · have after : hash < other := UInt64.lt_of_le_of_ne (UInt64.not_lt.mp before) different.symm
        simp [setBucket, bucket, before, after]
  | node left own present right leftIH rightIH =>
      by_cases before : hash < own
      · simp only [setBucket, before, if_true, bucket, leftIH]
      · by_cases after : own < hash
        · simp only [setBucket, before, after, if_true, if_false, bucket, rightIH]
        · have same : own = hash :=
            UInt64.le_antisymm (UInt64.not_lt.mp before) (UInt64.not_lt.mp after)
          subst same
          by_cases left : other < own
          · simp [setBucket, bucket, left]
          · have right : own < other :=
              UInt64.lt_of_le_of_ne (UInt64.not_lt.mp left) different.symm
            simp [setBucket, bucket, left, right]

/-- The items of a tree are those under a hash and some others, and replacing the ones under the
hash leaves the others. -/
theorem exists_toList_perm (tree : HashTree α) (hash : UInt64) :
    ∃ others, tree.toList.Perm (tree.bucket hash ++ others) ∧
      ∀ items, (tree.setBucket hash items).toList.Perm (items ++ others) := by
  induction tree with
  | leaf => exact ⟨[], .refl [], fun items => by simp [setBucket, toList]⟩
  | node left own present right leftIH rightIH =>
      by_cases before : hash < own
      · obtain ⟨others, present_perm, set_perm⟩ := leftIH
        refine ⟨others ++ (present ++ right.toList), ?_, fun items => ?_⟩
        · simp only [toList, bucket, before, if_true]
          simpa only [List.append_assoc] using
            present_perm.append_right (present ++ right.toList)
        · simp only [toList, setBucket, before, if_true]
          simpa only [List.append_assoc] using
            (set_perm items).append_right (present ++ right.toList)
      · by_cases after : own < hash
        · obtain ⟨others, present_perm, set_perm⟩ := rightIH
          refine ⟨left.toList ++ (present ++ others), ?_, fun items => ?_⟩
          · simp only [toList, bucket, before, after, if_true, if_false]
            exact (((present_perm.append_left present).trans
              (List.perm_append_comm_assoc present _ others)).append_left left.toList).trans
                (List.perm_append_comm_assoc left.toList _ (present ++ others))
          · simp only [toList, setBucket, before, after, if_true, if_false]
            exact ((((set_perm items).append_left present).trans
              (List.perm_append_comm_assoc present items others)).append_left left.toList).trans
                (List.perm_append_comm_assoc left.toList items (present ++ others))
        · refine ⟨left.toList ++ right.toList, ?_, fun items => ?_⟩
          · simp only [toList, bucket, before, after, if_false]
            exact List.perm_append_comm_assoc left.toList present right.toList
          · simp only [toList, setBucket, before, after, if_false]
            exact List.perm_append_comm_assoc left.toList items right.toList

theorem length_toList_setBucket (tree : HashTree α) (hash : UInt64) (items : List α) :
    (tree.setBucket hash items).toList.length + (tree.bucket hash).length =
      tree.toList.length + items.length := by
  obtain ⟨others, present_perm, set_perm⟩ := tree.exists_toList_perm hash
  rw [present_perm.length_eq, (set_perm items).length_eq, List.length_append, List.length_append]
  omega

theorem toList_map (tree : HashTree α) (change : α → α) :
    (tree.map change).toList = tree.toList.map change := by
  induction tree with
  | leaf => rfl
  | node left own items right leftIH rightIH =>
      simp [map, toList, leftIH, rightIH]

end HashTree

end QueryResult
