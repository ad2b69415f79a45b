import Mathlib.Data.Finmap
import QueryResult.ContentIndex
import QueryResult.Proofs.Value.Content

/-!
# Content indexes are finite maps

A content index represents a finite map from row contents to rows: its entries
are those of the map, each in the bucket of its hash. The operations of the
index are those of the map.
-/

set_option autoImplicit false

namespace QueryResult

/-! ## Placement by hash -/

namespace HashTree

variable {α : Type} {hashOf : α → UInt64} {tree : HashTree α}

/-- The bucket of each hash has the items of that hash. -/
def Placed (hashOf : α → UInt64) (tree : HashTree α) : Prop :=
  ∀ hash, (tree.toList.filter fun item => hashOf item == hash).Perm (tree.bucket hash)

theorem placed_leaf (hashOf : α → UInt64) : Placed hashOf .leaf :=
  fun _ => .refl []

theorem Placed.mem_bucket_iff (placed : Placed hashOf tree) {hash : UInt64} {item : α} :
    item ∈ tree.bucket hash ↔ item ∈ tree.toList ∧ hashOf item = hash := by
  rw [← (placed hash).mem_iff, List.mem_filter, beq_iff_eq]

/-- The items outside of a bucket have other hashes. -/
theorem Placed.filter_others (placed : Placed hashOf tree) {hash : UInt64} {others : List α}
    (split : tree.toList.Perm (tree.bucket hash ++ others)) :
    others.filter (fun item => hashOf item == hash) = [] := by
  have own : (tree.bucket hash).filter (fun item => hashOf item == hash) = tree.bucket hash :=
    List.filter_eq_self.mpr fun item held => beq_iff_eq.mpr (placed.mem_bucket_iff.mp held).2
  have filtered := ((split.filter fun item => hashOf item == hash).symm.trans (placed hash)).length_eq
  rw [List.filter_append, own, List.length_append] at filtered
  exact List.eq_nil_of_length_eq_zero (by omega)

theorem Placed.setBucket (placed : Placed hashOf tree) {hash : UInt64} {items : List α}
    (matching : ∀ item ∈ items, hashOf item = hash) :
    Placed hashOf (tree.setBucket hash items) := by
  obtain ⟨others, present, replaced⟩ := tree.exists_toList_perm hash
  intro other
  refine ((replaced items).filter _).trans ?_
  rw [List.filter_append]
  by_cases same : other = hash
  · subst same
    rw [placed.filter_others present, List.append_nil, bucket_setBucket_self,
      List.filter_eq_self.mpr fun item held => beq_iff_eq.mpr (matching item held)]
  · have none : ∀ list : List α, (∀ item ∈ list, hashOf item = hash) →
        list.filter (fun item => hashOf item == other) = [] := by
      intro list all
      rw [List.filter_eq_nil_iff]
      intro item held equal
      exact same ((beq_iff_eq.mp equal).symm.trans (all item held))
    have rest := (present.filter fun item => hashOf item == other).symm.trans (placed other)
    rw [List.filter_append, none _ fun item held => (placed.mem_bucket_iff.mp held).2] at rest
    rw [none items matching, bucket_setBucket_of_ne tree items same]
    exact rest

end HashTree

/-! ## Maps -/

/-- A finite map from row contents to rows. -/
abbrev ContentMap : Type := Finmap fun _ : RowContent => Row

namespace ContentMap

theorem exists_eq_insert {map : ContentMap} {content : RowContent} {row : Row}
    {rest : Multiset (Sigma fun _ : RowContent => Row)}
    (entries : map.entries = ⟨content, row⟩ ::ₘ rest) :
    ∃ smaller : ContentMap, smaller.entries = rest ∧ content ∉ smaller ∧
      map = smaller.insert content row := by
  have nodup := Multiset.nodup_keys.mpr map.nodupKeys
  rw [entries, Multiset.keys_cons, Multiset.nodup_cons] at nodup
  have absent : content ∉ (⟨rest, Multiset.nodup_keys.mp nodup.2⟩ : ContentMap) :=
    fun held => nodup.1 (Finmap.mem_def.mp held)
  refine ⟨⟨rest, Multiset.nodup_keys.mp nodup.2⟩, rfl, absent, Finmap.ext ?_⟩
  rw [entries, Finmap.entries_insert_of_notMem absent]

theorem insert_entries {map : ContentMap} {content : RowContent} {row other : Row}
    {rest : Multiset (Sigma fun _ : RowContent => Row)}
    (entries : map.entries = ⟨content, row⟩ ::ₘ rest) :
    (map.insert content other).entries = ⟨content, other⟩ ::ₘ rest := by
  obtain ⟨smaller, rfl, absent, rfl⟩ := exists_eq_insert entries
  rw [Finmap.insert_insert, Finmap.entries_insert_of_notMem absent]

theorem erase_entries {map : ContentMap} {content : RowContent} {row : Row}
    {rest : Multiset (Sigma fun _ : RowContent => Row)}
    (entries : map.entries = ⟨content, row⟩ ::ₘ rest) : (map.erase content).entries = rest := by
  obtain ⟨smaller, rfl, absent, rfl⟩ := exists_eq_insert entries
  have erased : (smaller.insert content row).erase content = smaller := by
    refine Finmap.ext_lookup fun other => ?_
    by_cases same : other = content
    · subst same
      rw [Finmap.lookup_erase, Finmap.lookup_eq_none.mpr absent]
    · rw [Finmap.lookup_erase_ne same, Finmap.lookup_insert_of_ne _ same]
  rw [erased]

theorem erase_of_notMem {map : ContentMap} {content : RowContent} (absent : content ∉ map) :
    map.erase content = map := by
  refine Finmap.ext_lookup fun other => ?_
  by_cases same : other = content
  · subst same
    rw [Finmap.lookup_erase, Finmap.lookup_eq_none.mpr absent]
  · rw [Finmap.lookup_erase_ne same]

/-- Every row of the map is under the content of its visible values. -/
def Keyed (visible : Nat) (map : ContentMap) : Prop :=
  ∀ content row, map.lookup content = some row → RowContent.of (row.take visible) = content

variable {visible : Nat} {map : ContentMap}

theorem keyed_empty (visible : Nat) : Keyed visible ∅ := by
  intro content row held
  simp [Finmap.lookup_empty] at held

theorem Keyed.insert (keyed : Keyed visible map) {content : RowContent} {row : Row}
    (own : RowContent.of (row.take visible) = content) : Keyed visible (map.insert content row) := by
  intro other found held
  by_cases same : other = content
  · subst same
    rw [Finmap.lookup_insert] at held
    cases held
    exact own
  · rw [Finmap.lookup_insert_of_ne _ same] at held
    exact keyed other found held

theorem Keyed.erase (keyed : Keyed visible map) (content : RowContent) :
    Keyed visible (map.erase content) := by
  intro other found held
  by_cases same : other = content
  · subst same
    rw [Finmap.lookup_erase] at held
    cases held
  · rw [Finmap.lookup_erase_ne same] at held
    exact keyed other found held

/-- The visible values of the rows of the map are its contents, each once. -/
theorem Keyed.map_entries (keyed : Keyed visible map) :
    (map.entries.map Sigma.snd).map (fun row => RowContent.of (row.take visible)) =
      map.keys.val := by
  rw [Multiset.map_map]
  exact Multiset.map_congr rfl fun entry held =>
    keyed entry.1 entry.2 (Finmap.lookup_eq_some_iff.mpr held)

end ContentMap

namespace RowKey

theorem ofValues_agrees_iff {left right : List Value} :
    (ofValues left).agrees (ofValues right) = true ↔ RowContent.of left = RowContent.of right := by
  rw [RowContent.of_eq_of_iff, agrees_iff_sameContent]

end RowKey

namespace ContentIndex

variable {index : ContentIndex} {map : ContentMap}

/-! ## Entries -/

theorem mem_replaceRow {key : RowKey} {row : Row} {entries : List (RowKey × Row)}
    {entry : RowKey × Row} (listed : entry ∈ replaceRow key row entries) :
    entry ∈ entries ∨ entry.2 = row ∧ ∃ old, (entry.1, old) ∈ entries := by
  induction entries with
  | nil => cases listed
  | cons first rest ih =>
      rw [replaceRow] at listed
      split at listed
      · rcases List.mem_cons.mp listed with rfl | inRest
        · exact .inr ⟨rfl, first.2, List.mem_cons_self⟩
        · exact .inl (.tail _ inRest)
      · rcases List.mem_cons.mp listed with rfl | inRest
        · exact .inl List.mem_cons_self
        · rcases ih inRest with kept | ⟨replaced, old, present⟩
          · exact .inl (.tail _ kept)
          · exact .inr ⟨replaced, old, .tail _ present⟩

/-- An entry after putting a row under a key is an old one, or has the row, under the key or under
an old one. -/
theorem mem_insert {key : RowKey} {row : Row} {entry : RowKey × Row}
    (listed : entry ∈ (index.insert key row).2.toList) :
    entry ∈ index.toList ∨
      entry.2 = row ∧ (entry.1 = key ∨ ∃ old, (entry.1, old) ∈ index.toList) := by
  obtain ⟨others, present, replaced⟩ := index.tree.exists_toList_perm key.hash
  have isHeld : ∀ other, other ∈ index.candidates key ∨ other ∈ others → other ∈ index.toList :=
    fun other either => present.mem_iff.mpr (List.mem_append.mpr either)
  unfold ContentIndex.insert at listed
  split at listed
  · rcases List.mem_append.mp ((replaced _).mem_iff.mp listed) with inItems | inOthers
    · rcases mem_replaceRow inItems with kept | ⟨new, old, oldListed⟩
      · exact .inl (isHeld entry (.inl kept))
      · exact .inr ⟨new, .inr ⟨old, isHeld _ (.inl oldListed)⟩⟩
    · exact .inl (isHeld entry (.inr inOthers))
  · rcases List.mem_append.mp ((replaced _).mem_iff.mp listed) with inItems | inOthers
    · rcases List.mem_cons.mp inItems with rfl | kept
      · exact .inr ⟨rfl, .inl rfl⟩
      · exact .inl (isHeld entry (.inl kept))
    · exact .inl (isHeld entry (.inr inOthers))

theorem mem_erase {key : RowKey} {entry : RowKey × Row}
    (listed : entry ∈ (index.erase key).2.toList) : entry ∈ index.toList := by
  obtain ⟨others, present, replaced⟩ := index.tree.exists_toList_perm key.hash
  unfold ContentIndex.erase at listed
  split at listed
  · rcases List.mem_append.mp ((replaced _).mem_iff.mp listed) with inItems | inOthers
    · exact present.mem_iff.mpr (List.mem_append_left _ (List.mem_of_mem_eraseP inItems))
    · exact present.mem_iff.mpr (List.mem_append_right _ inOthers)
  · exact listed

/-! ## Answers and sizes -/

theorem insert_of_contains {key : RowKey} (present : index.contains key = true) (row : Row) :
    (index.insert key row).1 = false ∧ (index.insert key row).2.size = index.size := by
  rw [ContentIndex.insert, if_pos present]
  exact ⟨rfl, rfl⟩

theorem insert_of_not_contains {key : RowKey} (absent : ¬ index.contains key = true) (row : Row) :
    (index.insert key row).1 = true ∧ (index.insert key row).2.size = index.size + 1 := by
  rw [ContentIndex.insert, if_neg absent]
  exact ⟨rfl, rfl⟩

theorem erase_fst (index : ContentIndex) (key : RowKey) :
    (index.erase key).1 = index.contains key := by
  unfold ContentIndex.erase
  split
  · rename_i present
    exact present.symm
  · rename_i absent
    exact (Bool.eq_false_iff.mpr absent).symm

theorem size_erase_le (index : ContentIndex) (key : RowKey) :
    (index.erase key).2.size ≤ index.size := by
  unfold ContentIndex.erase
  split
  · exact Nat.sub_le _ _
  · exact Nat.le_refl _

/-! ## Representation -/

/-- An entry as one of a finite map. -/
def pair (entry : RowKey × Row) : Sigma fun _ : RowContent => Row :=
  ⟨RowContent.of entry.1.values, entry.2⟩

/-- The index stands for a finite map. -/
structure Represents (index : ContentIndex) (map : ContentMap) : Prop where
  placed : index.tree.Placed fun entry => entry.1.hash
  hashed : ∀ entry ∈ index.toList, entry.1 = RowKey.ofValues entry.1.values
  entries : map.entries = index.toList.map pair

theorem represents_empty : Represents empty ∅ :=
  ⟨HashTree.placed_leaf _, fun _ held => absurd held List.not_mem_nil, rfl⟩

theorem Represents.card_eq (represents : index.Represents map) :
    map.entries.card = index.size := by
  rw [represents.entries, Multiset.coe_card, List.length_map, index.size_eq]
  rfl

theorem Represents.values_eq (represents : index.Represents map) :
    (index.values : Multiset Row) = map.entries.map Sigma.snd := by
  rw [represents.entries, Multiset.map_coe, List.map_map]
  rfl

theorem Represents.mem_iff (represents : index.Represents map) {content : RowContent} :
    content ∈ map ↔ ∃ entry ∈ index.toList, RowContent.of entry.1.values = content := by
  rw [Finmap.mem_def, represents.entries, Multiset.coe_keys, Multiset.mem_coe, List.keys,
    List.map_map, List.mem_map]
  rfl

theorem Represents.mem_candidates_iff (represents : index.Represents map) {key : RowKey}
    {entry : RowKey × Row} :
    entry ∈ index.candidates key ↔ entry ∈ index.toList ∧ entry.1.hash = key.hash :=
  represents.placed.mem_bucket_iff

theorem Represents.agrees_iff (represents : index.Represents map) {values : List Value}
    {entry : RowKey × Row} (held : entry ∈ index.toList) :
    (RowKey.ofValues values).agrees entry.1 = true ↔
      RowContent.of values = RowContent.of entry.1.values := by
  rw [represents.hashed entry held]
  exact RowKey.ofValues_agrees_iff

theorem Represents.contains_iff (represents : index.Represents map) {values : List Value} :
    index.contains (RowKey.ofValues values) = true ↔ RowContent.of values ∈ map := by
  rw [represents.mem_iff, contains, List.any_eq_true]
  constructor
  · rintro ⟨entry, listed, agrees⟩
    have held := (represents.mem_candidates_iff.mp listed).1
    exact ⟨entry, held, ((represents.agrees_iff held).mp agrees).symm⟩
  · rintro ⟨entry, held, same⟩
    have agrees := (represents.agrees_iff held).mpr same.symm
    refine ⟨entry, represents.mem_candidates_iff.mpr ⟨held, ?_⟩, agrees⟩
    rw [RowKey.agrees, Bool.and_eq_true, beq_iff_eq] at agrees
    exact agrees.1.symm

theorem perm_middle_append {α : Type} (item : α) (before after others : List α) :
    (before ++ item :: after ++ others).Perm (item :: (before ++ after ++ others)) := by
  rw [List.append_assoc, List.cons_append, List.append_assoc]
  exact List.perm_middle

/-- The candidates for a key split at the first entry that agrees with it. -/
structure SplitAt (index : ContentIndex) (values : List Value) (before : List (RowKey × Row))
    (entry : RowKey × Row) (after : List (RowKey × Row)) : Prop where
  candidates : index.candidates (RowKey.ofValues values) = before ++ entry :: after
  earlier : ∀ other ∈ before, (RowKey.ofValues values).agrees other.1 = false
  agrees : (RowKey.ofValues values).agrees entry.1 = true

theorem exists_splitAt {values : List Value}
    (held : index.contains (RowKey.ofValues values) = true) :
    ∃ before entry after, index.SplitAt values before entry after := by
  obtain ⟨found, listed, foundAgrees⟩ := List.any_eq_true.mp held
  obtain ⟨entry, before, after, earlier, agrees, split, _⟩ :=
    List.exists_of_eraseP (p := fun entry => (RowKey.ofValues values).agrees entry.1) listed
      foundAgrees
  exact ⟨before, entry, after, split, fun other held => Bool.eq_false_iff.mpr (earlier other held),
    agrees⟩

theorem SplitAt.entry_mem {values : List Value} {before after : List (RowKey × Row)}
    {entry : RowKey × Row} (split : index.SplitAt values before entry after)
    (represents : index.Represents map) : entry ∈ index.toList := by
  have listed : entry ∈ index.candidates (RowKey.ofValues values) := by
    rw [split.candidates]
    exact List.mem_append_right _ List.mem_cons_self
  exact (represents.mem_candidates_iff.mp listed).1

theorem SplitAt.entries_eq {values : List Value} {before after others : List (RowKey × Row)}
    {entry : RowKey × Row} (split : index.SplitAt values before entry after)
    (represents : index.Represents map)
    (present : index.toList.Perm (index.candidates (RowKey.ofValues values) ++ others)) :
    map.entries = ⟨RowContent.of values, entry.2⟩ ::ₘ
      ((before ++ after ++ others).map pair : Multiset (Sigma fun _ : RowContent => Row)) := by
  have held := split.entry_mem represents
  have moved : index.toList.Perm (entry :: (before ++ after ++ others)) := by
    rw [split.candidates] at present
    exact present.trans (perm_middle_append entry before after others)
  rw [represents.entries, Multiset.coe_eq_coe.mpr (moved.map pair), List.map_cons,
    ← Multiset.cons_coe, pair, (represents.agrees_iff held).mp split.agrees]

/-! ## Updates -/

/-- The entry belongs into the bucket of a hash. -/
def BelongsTo (hash : UInt64) (entry : RowKey × Row) : Prop :=
  entry.1.hash = hash ∧ entry.1 = RowKey.ofValues entry.1.values

theorem Represents.belongsTo (represents : index.Represents map) {key : RowKey}
    {entry : RowKey × Row} (listed : entry ∈ index.candidates key) : BelongsTo key.hash entry :=
  have held := represents.mem_candidates_iff.mp listed
  ⟨held.2, represents.hashed entry held.1⟩

/-- Replacing a bucket by entries that belong there keeps a representation, of the map with the
entries of the new tree. -/
theorem Represents.of_setBucket (represents : index.Represents map) {hash : UInt64}
    {items others : List (RowKey × Row)} {updated : ContentIndex} {changed : ContentMap}
    (tree : updated.tree = index.tree.setBucket hash items)
    (belong : ∀ entry ∈ items, BelongsTo hash entry)
    (present : index.toList.Perm (index.tree.bucket hash ++ others))
    (replaced : (index.tree.setBucket hash items).toList.Perm (items ++ others))
    (entries : changed.entries =
      ((items ++ others).map pair : Multiset (Sigma fun _ : RowContent => Row))) :
    updated.Represents changed where
  placed := tree ▸ represents.placed.setBucket fun entry held => (belong entry held).1
  hashed := by
    intro entry held
    rw [toList, tree, replaced.mem_iff, List.mem_append] at held
    rcases held with inItems | inOthers
    · exact (belong entry inItems).2
    · exact represents.hashed entry (present.mem_iff.mpr (List.mem_append_right _ inOthers))
  entries := by
    rw [entries, toList, tree]
    exact Multiset.coe_eq_coe.mpr (replaced.symm.map pair)

theorem replaceRow_split {key : RowKey} {row : Row} {before after : List (RowKey × Row)}
    {entry : RowKey × Row} (earlier : ∀ other ∈ before, key.agrees other.1 = false)
    (agrees : key.agrees entry.1 = true) :
    replaceRow key row (before ++ entry :: after) = before ++ (entry.1, row) :: after := by
  induction before with
  | nil => simp [replaceRow, agrees]
  | cons other rest ih =>
      have missed := earlier other (by simp)
      simp only [List.cons_append, replaceRow, missed, Bool.false_eq_true, if_false]
      rw [ih fun later held => earlier later (.tail _ held)]

theorem Represents.insert (represents : index.Represents map) (values : List Value) (row : Row) :
    (index.insert (RowKey.ofValues values) row).2.Represents
      (map.insert (RowContent.of values) row) := by
  obtain ⟨others, present, replaced⟩ := index.tree.exists_toList_perm (RowKey.ofValues values).hash
  unfold ContentIndex.insert
  by_cases held : index.contains (RowKey.ofValues values) = true
  · obtain ⟨before, entry, after, split⟩ := exists_splitAt held
    have items : replaceRow (RowKey.ofValues values) row
        (index.candidates (RowKey.ofValues values)) = before ++ (entry.1, row) :: after := by
      rw [split.candidates]
      exact replaceRow_split split.earlier split.agrees
    rw [if_pos held]
    refine represents.of_setBucket rfl ?_ present (replaced _) ?_
    · have belong : ∀ other ∈ before ++ entry :: after,
          BelongsTo (RowKey.ofValues values).hash other :=
        fun other listed => represents.belongsTo (split.candidates ▸ listed)
      intro other listed
      rw [items, List.mem_append, List.mem_cons] at listed
      rcases listed with listed | rfl | listed
      · exact belong other (by simp [listed])
      · exact belong entry (by simp)
      · exact belong other (by simp [listed])
    · have content := (represents.agrees_iff (split.entry_mem represents)).mp split.agrees
      rw [ContentMap.insert_entries (split.entries_eq represents present), items,
        Multiset.coe_eq_coe.mpr ((perm_middle_append _ before after others).map pair),
        List.map_cons, ← Multiset.cons_coe, pair, content]
  · have absent : RowContent.of values ∉ map := fun inMap =>
      held (represents.contains_iff.mpr inMap)
    rw [if_neg held]
    refine represents.of_setBucket rfl ?_ present (replaced _) ?_
    · intro other listed
      rcases List.mem_cons.mp listed with rfl | listed
      · exact ⟨rfl, rfl⟩
      · exact represents.belongsTo listed
    · have entries : map.entries = (index.candidates (RowKey.ofValues values) ++ others).map pair :=
        represents.entries.trans (Multiset.coe_eq_coe.mpr (present.map pair))
      rw [Finmap.entries_insert_of_notMem absent, entries]
      rfl

theorem Represents.mem_values_insert (represents : index.Represents map) (values : List Value)
    (row : Row) : row ∈ (index.insert (RowKey.ofValues values) row).2.values := by
  have inserted := represents.insert values row
  have entry : ⟨RowContent.of values, row⟩ ∈ (map.insert (RowContent.of values) row).entries :=
    Finmap.mem_lookup_iff.mp (Finmap.lookup_insert map)
  rw [← Multiset.mem_coe, inserted.values_eq]
  exact Multiset.mem_map_of_mem Sigma.snd entry

theorem Represents.erase (represents : index.Represents map) (values : List Value) :
    (index.erase (RowKey.ofValues values)).2.Represents (map.erase (RowContent.of values)) := by
  obtain ⟨others, present, replaced⟩ := index.tree.exists_toList_perm (RowKey.ofValues values).hash
  unfold ContentIndex.erase
  by_cases held : index.contains (RowKey.ofValues values) = true
  · obtain ⟨before, entry, after, split⟩ := exists_splitAt held
    have items : (index.candidates (RowKey.ofValues values)).eraseP
        (fun entry => (RowKey.ofValues values).agrees entry.1) = before ++ after := by
      rw [split.candidates, List.eraseP_append_right _ fun other listed => by
        simp [split.earlier other listed]]
      rw [List.eraseP_cons, split.agrees, cond_true]
    rw [dif_pos held]
    refine represents.of_setBucket rfl ?_ present (replaced _) ?_
    · intro other listed
      rw [items, List.mem_append] at listed
      refine represents.belongsTo ?_
      rw [split.candidates]
      rcases listed with listed | listed
      · exact List.mem_append_left _ listed
      · exact List.mem_append_right _ (.tail _ listed)
    · rw [ContentMap.erase_entries (split.entries_eq represents present), items]
  · have absent : RowContent.of values ∉ map := fun inMap =>
      held (represents.contains_iff.mpr inMap)
    rw [dif_neg held, ContentMap.erase_of_notMem absent]
    exact represents

/-! ## Indexing rows -/

/-- The map from the contents of leading values to rows, the last row of each content. -/
def leadingMap (visible : Nat) (rows : List Row) : ContentMap :=
  rows.foldl (fun map row => map.insert (RowContent.of (row.take visible)) row) ∅

theorem mem_leadingMap_iff {visible : Nat} {rows : List Row} {content : RowContent} :
    content ∈ leadingMap visible rows ↔ ∃ row ∈ rows, RowContent.of (row.take visible) = content := by
  have grown : ∀ (map : ContentMap) (rows : List Row),
      content ∈ rows.foldl (fun map row => map.insert (RowContent.of (row.take visible)) row) map ↔
        (∃ row ∈ rows, RowContent.of (row.take visible) = content) ∨ content ∈ map := by
    intro map rows
    induction rows generalizing map with
    | nil => simp
    | cons row rest ih =>
        simp only [List.foldl_cons, ih, Finmap.mem_insert, List.mem_cons, exists_eq_or_imp]
        rw [or_left_comm, ← or_assoc, eq_comm]
  rw [leadingMap, grown]
  simp [Finmap.notMem_empty]

theorem ofRows_represents {visible : Nat} {rows : List Row}
    (wide : ∀ row ∈ rows, visible ≤ row.length) :
    ∃ index, ofRows visible rows = .ok index ∧ index.Represents (leadingMap visible rows) := by
  have grown : ∀ (start : ContentIndex) (map : ContentMap), start.Represents map →
      ∃ index, (rows.foldlM
          (fun index row => do
            let key ← RowKey.ofVisible row visible
            return (index.insert key row).2) start : Except Fault ContentIndex) = .ok index ∧
        index.Represents
          (rows.foldl (fun map row => map.insert (RowContent.of (row.take visible)) row) map) := by
    induction rows with
    | nil => exact fun start map represents => ⟨start, rfl, represents⟩
    | cons row rest ih =>
        intro start map represents
        have key : RowKey.ofVisible row visible = .ok (RowKey.ofValues (row.take visible)) :=
          if_pos (wide row (by simp))
        simp only [List.foldlM_cons, key, List.foldl_cons]
        exact ih (fun other held => wide other (.tail _ held)) _ _
          (represents.insert (row.take visible) row)
  exact grown empty ∅ represents_empty

end ContentIndex

end QueryResult
