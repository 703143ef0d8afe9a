import DocPath.Proofs.Document.Dense
import DocPath.Proofs.Flat.Pruned

/-! Copying a document by flattening and building. Where every node can be copied as it is, pruning
takes nothing away, so writing the leaves makes the document again; and whatever building makes can
be copied as it is, so no other document comes back unchanged. -/

namespace DocPath.Node

/-- An array with a leaf in an item that lies beyond the largest index. -/
def Overlong (node : Node) : Prop :=
  ∃ items, node = .array items ∧ ∃ position item,
    items[position]? = some item ∧ maxArrayIndex < position ∧ item.HasLeaf

theorem not_overlong_of_length {node : Node}
    (short : ∀ items, node = .array items → items.length ≤ maxArrayIndex + 1) : ¬node.Overlong := by
  rintro ⟨items, same, position, item, found, far, -⟩
  obtain ⟨within, -⟩ := List.getElem?_eq_some_iff.mp found
  have bound := short items same
  omega

theorem Copyable.not_overlong {compact : Bool} {node : Node} (copyable : node.Copyable compact) :
    ¬node.Overlong := by
  apply not_overlong_of_length
  rintro items rfl
  exact copyable.2.1

theorem not_overlong_iff {node : Node} (addressable : node.Addressable) :
    ¬node.Overlong ↔ ∀ child ∈ node.children, child.2.HasLeaf → Path.WithinLimit [child.1] := by
  constructor
  · intro short child member leaf position occurs
    rw [List.mem_singleton] at occurs
    cases node with
    | absent | null | bool | number | string => cases member
    | object fields =>
      obtain ⟨field, -, rfl⟩ := List.mem_map.mp member
      cases occurs
    | array items =>
      obtain ⟨item, inside, rfl⟩ := List.mem_map.mp member
      cases occurs
      have found := List.mem_zipIdx_iff_getElem?.mp inside
      obtain ⟨within, -⟩ := List.getElem?_eq_some_iff.mp found
      rw [Index.val_ofPosition (Nat.lt_of_lt_of_le within addressable), ← Nat.not_lt]
      exact fun far => short ⟨items, rfl, item.2, item.1, found, far, leaf⟩
  · rintro each ⟨items, rfl, position, item, found, far, leaf⟩
    obtain ⟨within, -⟩ := List.getElem?_eq_some_iff.mp found
    have bound := each _ (mem_children_of_item found) leaf _ List.mem_cons_self
    rw [Index.val_ofPosition (Nat.lt_of_lt_of_le within addressable)] at bound
    omega

theorem withinLimit_leaves_iff {document : Node} (addressable : Everywhere Addressable document) :
    (∀ leaf ∈ document.leaves, Path.WithinLimit leaf.1) ↔
      Everywhere (fun part => ¬part.Overlong) document := by
  induction document using induction_children with
  | single node single =>
    rw [leaves_of_not_container single, everywhere_single_iff single]
    constructor
    · rintro - ⟨items, rfl, -⟩
      cases single
    · rintro - leaf member position occurs
      obtain ⟨value, -, rfl⟩ := List.mem_map.mp member
      cases occurs
  | container node container each =>
    have here := not_overlong_iff (addressable _ .here)
    constructor
    · intro limit
      apply everywhere_of_children
      · rw [here]
        intro child member leaf
        obtain ⟨inner, inside⟩ := List.exists_mem_of_ne_nil _ (hasLeaf_iff.mp leaf)
        exact (Path.withinLimit_cons_iff.mp (limit _ (mem_leaves_of_child member inside))).1
      · intro child member
        rw [← each child member (addressable.child member)]
        intro inner inside
        exact (Path.withinLimit_cons_iff.mp (limit _ (mem_leaves_of_child member inside))).2
    · intro whole leaf member
      rw [leaves_of_container container] at member
      obtain ⟨child, inside, below⟩ := List.mem_flatMap.mp member
      obtain ⟨inner, innerMember, rfl⟩ := List.mem_map.mp below
      apply Path.withinLimit_cons_iff.mpr
      constructor
      · exact here.mp (whole _ .here) child inside (hasLeaf_iff.mpr (List.ne_nil_of_mem innerMember))
      · exact (each child inside (addressable.child inside)).mpr (whole.child inside) inner innerMember

theorem trimmed_of_ends {items : List Node} (ends : items.getLast? ≠ some .absent) :
    trimmed items = items := by
  unfold trimmed
  rw [List.rdropWhile_eq_self_iff]
  intro nonempty hole
  rw [List.getLast?_eq_getLast_of_ne_nil nonempty, isAbsent_iff.mp hole] at ends
  exact ends rfl

theorem filled_of_present {fields : List (String × Node)}
    (present : ∀ field ∈ fields, field.2 ≠ .absent) : filled fields = fields := filter_present present

theorem pruned_of_copyable {node : Node} (whole : Everywhere (Copyable false) node) :
    node.pruned = node := by
  induction node with
  | absent | null | bool | number | string => exact pruned_of_not_container rfl
  | array items each =>
    obtain ⟨⟨nonempty, -, ends⟩, inside⟩ := everywhere_iff.mp whole
    have same : items.map pruned = items := by
      rw [List.map_congr_left fun item member => each item member (inside item member)]
      exact List.map_id' items
    rw [pruned, same, arrayOf, trimmed_of_ends ends, if_neg nonempty]
  | object fields each =>
    obtain ⟨⟨nonempty, present⟩, inside⟩ := everywhere_iff.mp whole
    have same : (fields.map fun field => (field.1, field.2.pruned)) = fields := by
      rw [List.map_congr_left (g := id) fun field member => by
        rw [each field member (inside field member)]; rfl]
      exact List.map_id fields
    rw [pruned, same, objectOf, filled_of_present (fun field member => (present field member).2),
      if_neg nonempty]

theorem Copyable.dense {node : Node} (copyable : node.Copyable true) : node.Dense := by
  cases node with
  | absent | null | bool | number | string | object => trivial
  | array items => exact copyable.2.2

theorem compact_of_copyable {node : Node} (whole : Everywhere (Copyable true) node) :
    node.compact = node := compact_of_dense (whole.mono fun _ => Copyable.dense)

theorem single_of_mem_leaves {node : Node} :
    ∀ leaf ∈ node.leaves, (ofJson leaf.2).isContainer = false := by
  induction node using induction_children with
  | single node single =>
    rw [leaves_of_not_container single]
    intro leaf member
    obtain ⟨value, held, same⟩ := List.mem_map.mp member
    subst same
    cases node with
    | absent | array | object => cases held
    | null | bool | number | string =>
      cases List.mem_singleton.mp held
      simp [ofJson, isContainer, isArray, isObject]
  | container node container each =>
    rw [leaves_of_container container]
    intro leaf member
    obtain ⟨child, inside, below⟩ := List.mem_flatMap.mp member
    obtain ⟨inner, innerMember, same⟩ := List.mem_map.mp below
    subst same
    exact each child inside inner innerMember

theorem single_of_mem_flatten {node : Node} :
    ∀ entry ∈ node.flatten.entries, (ofJson entry.2).isContainer = false := by
  intro entry member
  rw [flatten, FlatMap.entries_ofList] at member
  obtain ⟨leaf, inside, same⟩ := List.mem_map.mp (Fields.mem_ofList member)
  subst same
  exact single_of_mem_leaves leaf inside

theorem copy_eq_setAll {document : Node} (addressable : Everywhere Addressable document)
    (writable : Everywhere WritableNames document) (leafy : document.leaves ≠ []) (compact : Bool) :
    document.copy compact = (Node.absent.setAll document.leafWrites).map
      fun last => if compact then last.compact else last := by
  have nonempty : document.flatten.entries ≠ [] := by
    rw [entries_flatten addressable writable]
    exact fun none => leafy (List.map_eq_nil_iff.mp none)
  exact FlatMap.build_of_located (locate_flatten addressable writable) nonempty compact

/-- What a copy keeps of a document; of one without a leaf it keeps null. -/
def kept (document : Node) : Node := document.pruned.present?.getD .null

theorem copy_of_withinLimit {document : Node} (addressable : Everywhere Addressable document)
    (writable : Everywhere WritableNames document)
    (limit : ∀ leaf ∈ document.leaves, Path.WithinLimit leaf.1) (compact : Bool) :
    document.copy compact = .ok (if compact then document.kept.compact else document.kept) := by
  unfold kept
  by_cases leafless : document.leaves = []
  · have entries := entries_flatten addressable writable
    rw [leafless] at entries
    rw [copy, FlatMap.build_of_empty entries, pruned_eq_absent_iff.mpr leafless]
    cases compact <;> simp [Node.compact]
  · have present : document.pruned ≠ .absent := fun hole => leafless (pruned_eq_absent_iff.mp hole)
    rw [copy_eq_setAll addressable writable leafless,
      setAll_of_fillAll? (fillAll?_leafWrites addressable limit), present?_of_ne_absent present]
    rfl

theorem copy_of_copyable {document : Node} (distinct : Everywhere DistinctNames document)
    {compact : Bool} (whole : Everywhere (Copyable compact) document)
    (present : document ≠ .absent) : document.copy compact = .ok document := by
  have loose : Everywhere (Copyable false) document := whole.mono fun node => Copyable.loose
  have addressable := everywhere_addressable whole distinct
  have writable : Everywhere WritableNames document :=
    whole.mono fun node => Copyable.writableNames
  have limit := (withinLimit_leaves_iff addressable).mpr (whole.mono fun _ => Copyable.not_overlong)
  have same : document.kept = document := by
    rw [kept, pruned_of_copyable loose, present?_of_ne_absent present]
    rfl
  rw [copy_of_withinLimit addressable writable limit, same]
  cases compact with
  | false => rfl
  | true => exact congrArg Except.ok (compact_of_copyable whole)

theorem built_of_copy {document result : Node} {compact : Bool}
    (copied : document.copy compact = .ok result) :
    result ≠ .absent ∧
      Everywhere (fun node => node.Copyable compact ∧ node.DistinctNames) result :=
  built_of_build single_of_mem_flatten copied

theorem copyable_of_copy {document result : Node} {compact : Bool}
    (copied : document.copy compact = .ok result) :
    result ≠ .absent ∧ Everywhere (Copyable compact) result := by
  obtain ⟨present, built⟩ := built_of_copy copied
  exact ⟨present, built.mono fun node => And.left⟩

/-- A document whose objects name each field once comes back from flattening and building as it was
exactly where it is present and each of its nodes can be copied: no container is empty, no field
holds nothing, every key can be written, arrays stay within the limit and have no hole at their end,
or none at all if the copy is compacted. -/
theorem copy_eq_ok_self_iff {document : Node} (distinct : Everywhere DistinctNames document)
    (compact : Bool) :
    document.copy compact = .ok document ↔
      document ≠ .absent ∧ Everywhere (Copyable compact) document := by
  constructor
  · exact copyable_of_copy
  · intro copyable
    exact copy_of_copyable distinct copyable.2 copyable.1

theorem copy_of_hole_between_items :
    let document := object [("a", array [bool true, absent, null]), ("b", object [("c", null)])]
    Everywhere DistinctNames document ∧ document.copy false = .ok document ∧
      document.copy true ≠ .ok document := by
  intro document
  have distinct : Everywhere DistinctNames document := by
    simp [document, everywhere_object_iff, everywhere_array_iff, everywhere_single_iff, isContainer,
      isArray, isObject, DistinctNames]
  refine ⟨distinct, (copy_eq_ok_self_iff distinct false).mpr ⟨Node.noConfusion, ?_⟩, ?_⟩
  · simp [document, everywhere_object_iff, everywhere_array_iff, everywhere_single_iff, isContainer,
      isArray, isObject, Copyable, maxArrayIndex, Token.Writable, Path.isDelimiter]
  · intro same
    have whole := ((copy_eq_ok_self_iff distinct true).mp same).2
    have items := whole (array [bool true, absent, null]) (.field List.mem_cons_self .here)
    exact items.2.2 (by simp)

end DocPath.Node
