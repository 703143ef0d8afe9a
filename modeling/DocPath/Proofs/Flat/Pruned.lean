import Mathlib.Data.List.DropRight
import DocPath.Proofs.Flat.Built

/-! What flattening keeps of a document. Subtrees without a leaf vanish: a field goes, an item becomes
a hole, and holes at the end of an array go too. Writing the leaves of a document in order, beginning
with nothing, makes the pruned document; after each child the part written so far is the pruned
container of the children so far. -/

namespace DocPath.Node

/-- The items up to the last one that is present. -/
def trimmed (items : List Node) : List Node := items.rdropWhile isAbsent

def arrayOf (items : List Node) : Node :=
  if trimmed items = [] then .absent else .array (trimmed items)

def filled (fields : List (String × Node)) : List (String × Node) :=
  fields.filter fun field => !field.2.isAbsent

def objectOf (fields : List (String × Node)) : Node :=
  if filled fields = [] then .absent else .object (filled fields)

/-- The document without its leafless subtrees, or nothing if it has no leaf. -/
def pruned : Node → Node
  | .array items => arrayOf (items.map fun item => item.pruned)
  | .object fields => objectOf (fields.map fun field => (field.1, field.2.pruned))
  | other => other
termination_by node => node
decreasing_by
  · have := List.sizeOf_lt_of_mem ‹_›
    simp only [Node.array.sizeOf_spec]
    omega
  · have := Fields.sizeOf_snd_lt ‹_›
    simp only [Node.object.sizeOf_spec]
    omega

theorem pruned_of_not_container {node : Node} (single : node.isContainer = false) :
    node.pruned = node := by
  cases node with
  | absent | null | bool | number | string => simp [pruned]
  | array | object => cases single

theorem arrayOf_eq_absent_iff {items : List Node} :
    arrayOf items = .absent ↔ ∀ item ∈ items, item = .absent := by
  unfold arrayOf trimmed
  rw [ite_eq_left_iff, imp_iff_not (by simp), not_not, List.rdropWhile_eq_nil_iff]
  simp only [isAbsent_iff]

theorem objectOf_eq_absent_iff {fields : List (String × Node)} :
    objectOf fields = .absent ↔ ∀ field ∈ fields, field.2 = .absent := by
  unfold objectOf filled
  rw [ite_eq_left_iff, imp_iff_not (by simp), not_not, List.filter_eq_nil_iff]
  simp [← isAbsent_iff]

theorem pruned_eq_absent_iff {node : Node} : node.pruned = .absent ↔ node.leaves = [] := by
  induction node with
  | absent | null | bool | number | string => simp [pruned, leaves]
  | array items each =>
    rw [pruned, arrayOf_eq_absent_iff, List.forall_mem_map, leaves_array, List.flatMap_eq_nil_iff]
    constructor
    · intro gone place member
      have item := List.mem_of_getElem? (List.mem_zipIdx_iff_getElem?.mp member)
      rw [(each place.1 item).mp (gone place.1 item), List.map_nil]
    · intro none item member
      obtain ⟨position, found⟩ := List.mem_iff_getElem?.mp member
      have here := none (item, position) (List.mem_zipIdx_iff_getElem?.mpr found)
      exact (each item member).mpr (List.map_eq_nil_iff.mp here)
  | object fields each =>
    rw [pruned, objectOf_eq_absent_iff, List.forall_mem_map, leaves_object, List.flatMap_eq_nil_iff]
    simp only [List.map_eq_nil_iff]
    exact forall₂_congr each

theorem trimmed_concat_absent (items : List Node) : trimmed (items ++ [.absent]) = trimmed items :=
  List.rdropWhile_concat_pos isAbsent items .absent rfl

theorem trimmed_concat_present {item : Node} (present : item ≠ .absent) (items : List Node) :
    trimmed (items ++ [item]) = items ++ [item] := by
  apply List.rdropWhile_concat_neg
  intro hole
  exact present (isAbsent_iff.mp hole)

theorem length_trimmed_le (items : List Node) : (trimmed items).length ≤ items.length :=
  (List.rdropWhile_prefix isAbsent items).length_le

theorem padTo_trimmed (items : List Node) : padTo items.length (trimmed items) = items := by
  induction items using List.reverseRecOn with
  | nil => rfl
  | append_singleton front last ih =>
    by_cases hole : last = .absent
    · subst hole
      have shorter := length_trimmed_le front
      rw [trimmed_concat_absent]
      unfold padTo at ih ⊢
      rw [List.length_append, List.length_singleton, Nat.sub_add_comm shorter,
        List.replicate_succ', ← List.append_assoc, ih]
    · rw [trimmed_concat_present hole]
      exact padTo_of_le (Nat.le_refl _)

theorem arrayOf_concat_absent (items : List Node) : arrayOf (items ++ [.absent]) = arrayOf items := by
  unfold arrayOf
  rw [trimmed_concat_absent]

theorem arrayOf_concat_present {item : Node} (present : item ≠ .absent) (items : List Node) :
    arrayOf (items ++ [item]) = .array (items ++ [item]) := by
  unfold arrayOf
  rw [trimmed_concat_present present, if_neg (by simp)]

theorem opened_arrayOf (items : List Node) (position : Index) :
    (arrayOf items).opened (.index position) = .array (trimmed items) := by
  unfold arrayOf
  split
  · rename_i empty
    rw [empty]
    rfl
  · rfl

theorem withSlot_arrayOf {items : List Node} {item : Node} (present : item ≠ .absent)
    {position : Index} (next : position.val = items.length) :
    ((arrayOf items).opened (.index position)).withSlot (.index position) item =
      arrayOf (items ++ [item]) := by
  rw [opened_arrayOf, arrayOf_concat_present present]
  show Node.array ((padTo (position.val + 1) (trimmed items)).set position.val item) = _
  have padded : padTo (items.length + 1) (trimmed items) = items ++ [.absent] := by
    have longer := padTo_trimmed (items ++ [.absent])
    rw [trimmed_concat_absent, List.length_append, List.length_singleton] at longer
    exact longer
  rw [next, padded, List.set_append_right _ _ (Nat.le_refl _), Nat.sub_self]
  rfl

theorem slot_arrayOf {items : List Node} {position : Index} (next : items.length ≤ position.val) :
    (arrayOf items).slot (.index position) = .absent := by
  rw [← slot_opened (arrayOf items) (.index position), opened_arrayOf]
  show (trimmed items)[position.val]?.getD .absent = .absent
  rw [List.getElem?_eq_none (Nat.le_trans (length_trimmed_le items) next)]
  rfl

theorem clear_arrayOf (items : List Node) {position : Index} (within : position.val ≤ maxArrayIndex) :
    (arrayOf items).obstruction? (.index position) = none := by
  rw [obstruction?_eq_none_iff, opened_arrayOf]
  refine ⟨rfl, ?_⟩
  intro other same
  cases same
  exact Or.inl within

theorem opened_objectOf (fields : List (String × Node)) (name : String) :
    (objectOf fields).opened (.key name) = .object (filled fields) := by
  unfold objectOf
  split
  · rename_i empty
    rw [empty]
    rfl
  · rfl

theorem names_filled_subset {fields : List (String × Node)} {name : String}
    (member : name ∈ Fields.names (filled fields)) : name ∈ Fields.names fields := by
  obtain ⟨field, inside, same⟩ := List.mem_map.mp member
  exact same ▸ List.mem_map_of_mem (List.mem_of_mem_filter inside)

theorem objectOf_concat_absent (fields : List (String × Node)) (name : String) :
    objectOf (fields ++ [(name, .absent)]) = objectOf fields := by
  have same : filled (fields ++ [(name, .absent)]) = filled fields := by
    unfold filled
    rw [List.filter_append]
    exact List.append_nil _
  unfold objectOf
  rw [same]

theorem withSlot_objectOf {fields : List (String × Node)} {name : String} {value : Node}
    (present : value ≠ .absent) (new : name ∉ Fields.names fields) :
    ((objectOf fields).opened (.key name)).withSlot (.key name) value =
      objectOf (fields ++ [(name, value)]) := by
  have holds : value.isAbsent = false := by
    rw [← Bool.not_eq_true, isAbsent_iff]
    exact present
  have appended : filled (fields ++ [(name, value)]) = filled fields ++ [(name, value)] := by
    unfold filled
    rw [List.filter_append, List.filter_singleton, holds]
    rfl
  rw [opened_objectOf]
  unfold objectOf
  rw [appended, if_neg (by simp)]
  show Node.object (Fields.put name value (filled fields)) = _
  rw [Fields.put_of_not_mem (fun member => new (names_filled_subset member))]

theorem slot_objectOf {fields : List (String × Node)} {name : String}
    (new : name ∉ Fields.names fields) : (objectOf fields).slot (.key name) = .absent := by
  rw [← slot_opened (objectOf fields) (.key name), opened_objectOf]
  show (Fields.get? name (filled fields)).getD .absent = .absent
  rw [Fields.get?_eq_none_iff.mpr (fun member => new (names_filled_subset member))]
  rfl

theorem clear_objectOf (fields : List (String × Node)) (name : String) :
    (objectOf fields).obstruction? (.key name) = none := by
  rw [obstruction?_eq_none_iff, opened_objectOf]
  exact ⟨rfl, fun position same => by cases same⟩

theorem ne_absent_of_fill? {node value result : Node} {path : Path}
    (filled : node.fill? path value = some result) (present : value ≠ .absent) :
    result ≠ .absent := by
  cases path with
  | nil =>
    cases filled
    exact present
  | cons token rest =>
    obtain ⟨clear, inner, -, same⟩ := fill?_cons_eq_some_iff.mp filled
    subst same
    exact ne_absent_of_fits ((fits_withSlot _ token inner token).trans (fits_of_clear clear))

theorem ne_absent_of_fillAll? {node result : Node} {writes : List (Path × Node)}
    (filled : node.fillAll? writes = some result) (present : ∀ write ∈ writes, write.2 ≠ .absent)
    (begun : node ≠ .absent ∨ writes ≠ []) : result ≠ .absent := by
  induction writes generalizing node with
  | nil =>
    cases filled
    exact begun.resolve_right (fun none => none rfl)
  | cons write rest ih =>
    rw [fillAll?_cons, Option.bind_eq_some_iff] at filled
    obtain ⟨next, first, later⟩ := filled
    have here := ne_absent_of_fill? first (present write List.mem_cons_self)
    exact ih later (fun other member => present other (List.mem_cons_of_mem write member)) (Or.inl here)

def leafWrites (node : Node) : List (Path × Node) := node.leaves.map asWrite

theorem map_asWrite_under (token : Token) (leaves : List (Path × Json)) :
    (leaves.map (Path.under token)).map asWrite = (leaves.map asWrite).map (Path.under token) := by
  rw [List.map_map, List.map_map]
  rfl

theorem fillAll?_child {built child : Node} {token : Token}
    (written : Node.absent.fillAll? child.leafWrites = some child.pruned)
    (clear : child.leaves ≠ [] → built.obstruction? token = none)
    (new : built.slot token = .absent) :
    ∃ next, built.fillAll? ((child.leaves.map (Path.under token)).map asWrite) = some next ∧
      (child.pruned = .absent ∧ next = built ∨ child.pruned ≠ .absent ∧
        next = (built.opened token).withSlot token child.pruned) := by
  unfold leafWrites at written
  by_cases leafless : child.leaves = []
  · rw [leafless] at written ⊢
    exact ⟨built, rfl, Or.inl ⟨(Option.some.inj written).symm, rfl⟩⟩
  · have nonempty : child.leaves.map asWrite ≠ [] := fun none => leafless (List.map_eq_nil_iff.mp none)
    have present : child.pruned ≠ .absent := by
      refine ne_absent_of_fillAll? written ?_ (Or.inr nonempty)
      intro write member
      obtain ⟨leaf, -, same⟩ := List.mem_map.mp member
      subst same
      exact ofJson_ne_absent leaf.2
    refine ⟨_, ?_, Or.inr ⟨present, rfl⟩⟩
    rw [map_asWrite_under, fillAll?_under (clear leafless) nonempty, new, written]
    rfl

theorem fillAll?_items (items before : List Node)
    (each : ∀ item ∈ items, Node.absent.fillAll? item.leafWrites = some item.pruned)
    (short : before.length + items.length ≤ 0x10000000000000000)
    (limit : ∀ place, (place ∈ items.zipIdx before.length) → place.1.leaves ≠ [] →
      place.2 ≤ maxArrayIndex) :
    (arrayOf before).fillAll? (((items.zipIdx before.length).flatMap fun item =>
        item.1.leaves.map (Path.under (.index (Index.ofPosition item.2)))).map asWrite) =
      some (arrayOf (before ++ items.map pruned)) := by
  induction items generalizing before with
  | nil =>
    rw [List.map_nil, List.append_nil]
    rfl
  | cons item rest ih =>
    rw [List.length_cons] at short
    have value := Index.val_ofPosition (show before.length < 0x10000000000000000 by omega)
    rw [List.zipIdx_cons] at limit ⊢
    rw [List.flatMap_cons, List.map_append, fillAll?_append]
    have written := each item List.mem_cons_self
    have clear : item.leaves ≠ [] →
        (arrayOf before).obstruction? (.index (Index.ofPosition before.length)) = none := by
      intro leaves
      apply clear_arrayOf
      rw [value]
      exact limit (item, before.length) List.mem_cons_self leaves
    have new : (arrayOf before).slot (.index (Index.ofPosition before.length)) = .absent :=
      slot_arrayOf (Nat.le_of_eq value.symm)
    obtain ⟨next, filled, grown⟩ := fillAll?_child written clear new
    have state : next = arrayOf (before ++ [item.pruned]) := by
      rcases grown with ⟨hole, same⟩ | ⟨present, same⟩
      · rw [same, hole, arrayOf_concat_absent]
      · rw [same, withSlot_arrayOf present value]
    rw [filled, Option.bind_some, state]
    have longer : (before ++ [item.pruned]).length = before.length + 1 := by
      rw [List.length_append, List.length_singleton]
    rw [← longer] at limit ⊢
    rw [ih _ (fun other member => each other (List.mem_cons_of_mem item member))
      (by rw [longer]; omega)
      (fun place member => limit place (List.mem_cons_of_mem _ member)), List.append_assoc]
    rfl

theorem fillAll?_fields (fields before : List (String × Node))
    (each : ∀ field ∈ fields, Node.absent.fillAll? field.2.leafWrites = some field.2.pruned)
    (distinct : (Fields.names (before ++ fields)).Nodup) :
    (objectOf before).fillAll? ((fields.flatMap fun field =>
        field.2.leaves.map (Path.under (.key field.1))).map asWrite) =
      some (objectOf (before ++ fields.map fun field => (field.1, field.2.pruned))) := by
  induction fields generalizing before with
  | nil =>
    rw [List.map_nil, List.append_nil]
    rfl
  | cons field rest ih =>
    have new : field.1 ∉ Fields.names before := by
      intro member
      rw [Fields.names, List.map_append] at distinct
      exact (List.nodup_append.mp distinct).2.2 field.1 member field.1 List.mem_cons_self rfl
    rw [List.flatMap_cons, List.map_append, fillAll?_append]
    obtain ⟨next, filled, grown⟩ := fillAll?_child (each field List.mem_cons_self)
      (fun _ => clear_objectOf before field.1) (slot_objectOf new)
    have state : next = objectOf (before ++ [(field.1, field.2.pruned)]) := by
      rcases grown with ⟨hole, same⟩ | ⟨present, same⟩
      · rw [same, hole, objectOf_concat_absent]
      · rw [same, withSlot_objectOf present new]
    have names : Fields.names ((before ++ [(field.1, field.2.pruned)]) ++ rest) =
        Fields.names (before ++ field :: rest) := by
      simp [Fields.names]
    rw [filled, Option.bind_some, state,
      ih _ (fun other member => each other (List.mem_cons_of_mem field member))
        (by rw [names]; exact distinct), List.append_assoc]
    rfl

theorem fillAll?_leafWrites {node : Node} (addressable : Everywhere Addressable node)
    (limit : ∀ leaf ∈ node.leaves, Path.WithinLimit leaf.1) :
    Node.absent.fillAll? node.leafWrites = some node.pruned := by
  induction node with
  | absent | null | bool | number | string =>
    simp [leafWrites, leaves, pruned, fillAll?, asWrite, ofJson]
  | array items each =>
    obtain ⟨short, inside⟩ := everywhere_iff.mp addressable
    have parts : ∀ item ∈ items, Node.absent.fillAll? item.leafWrites = some item.pruned := by
      intro item member
      apply each item member (inside item member)
      intro leaf leafMember position occurs
      obtain ⟨place, found⟩ := List.mem_iff_getElem?.mp member
      have whole := mem_leaves_of_child (mem_children_of_item found) leafMember
      exact limit _ whole position (List.mem_cons_of_mem _ occurs)
    have positions : ∀ place ∈ items.zipIdx, place.1.leaves ≠ [] → place.2 ≤ maxArrayIndex := by
      intro place member leaves
      have found := List.mem_zipIdx_iff_getElem?.mp member
      obtain ⟨leaf, leafMember⟩ := List.exists_mem_of_ne_nil _ leaves
      have whole := mem_leaves_of_child (mem_children_of_item found) leafMember
      have bound := limit _ whole _ List.mem_cons_self
      obtain ⟨within, -⟩ := List.getElem?_eq_some_iff.mp found
      rw [Index.val_ofPosition (Nat.lt_of_lt_of_le within short)] at bound
      exact bound
    have length : ([] : List Node).length + items.length ≤ 0x10000000000000000 := by
      rw [List.length_nil, Nat.zero_add]
      exact short
    have written := fillAll?_items items [] parts length positions
    unfold leafWrites
    rw [leaves_array, pruned]
    exact written
  | object fields each =>
    obtain ⟨distinct, inside⟩ := everywhere_iff.mp addressable
    have parts : ∀ field ∈ fields, Node.absent.fillAll? field.2.leafWrites = some field.2.pruned := by
      intro field member
      apply each field member (inside field member)
      intro leaf leafMember position occurs
      have whole := mem_leaves_of_child (mem_children_of_field member) leafMember
      exact limit _ whole position (List.mem_cons_of_mem _ occurs)
    have written := fillAll?_fields fields [] parts distinct
    unfold leafWrites
    rw [leaves_object, pruned]
    exact written

end DocPath.Node
