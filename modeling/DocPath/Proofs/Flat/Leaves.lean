import Mathlib.Data.List.Nodup
import DocPath.Flat.Leaves
import DocPath.Proofs.Document.Everywhere
import DocPath.Proofs.Path.Apart

/-! The leaves of a document. In a document that tells its children apart by their tokens, the leaves
are exactly what reading finds that is no container, and their paths lie apart. -/

namespace DocPath.Node

/-- The children of a container with the tokens that lead to them, in order. -/
def children : Node → List (Token × Node)
  | .array items => items.zipIdx.map fun item => (.index (Index.ofPosition item.2), item.1)
  | .object fields => fields.map fun field => (.key field.1, field.2)
  | _ => []

theorem leaves_array (items : List Node) :
    (array items).leaves = items.zipIdx.flatMap fun item =>
      item.1.leaves.map (Path.under (.index (Index.ofPosition item.2))) := by
  rw [leaves, ← List.map_zipIdx, List.flatMap_map]
  rfl

theorem leaves_object (fields : List (String × Node)) :
    (object fields).leaves = fields.flatMap fun field =>
      field.2.leaves.map (Path.under (.key field.1)) := by
  rw [leaves, List.flatMap_map]

theorem leaves_of_container {node : Node} (container : node.isContainer = true) :
    node.leaves = node.children.flatMap fun child => child.2.leaves.map (Path.under child.1) := by
  cases node with
  | absent | null | bool | number | string => cases container
  | array items => rw [leaves_array, children, List.flatMap_map]
  | object fields => rw [leaves_object, children, List.flatMap_map]

/-- The value of a node that is a leaf. -/
def leaf? : Node → Option Json
  | .null => some .null
  | .bool value => some (.bool value)
  | .number value => some (.number value)
  | .string text => some (.string text)
  | _ => none

def IsLeaf (node : Node) : Prop := node.isScalar = true ∨ node.isNull = true

theorem leaf?_eq_some_iff {node : Node} {value : Json} :
    node.leaf? = some value ↔ node.IsLeaf ∧ node.toJson = value := by
  cases node <;> simp [leaf?, IsLeaf, isScalar, isNull, toJson]

theorem ofJson_of_leaf? {node : Node} {value : Json} (held : node.leaf? = some value) :
    ofJson value = node := by
  cases node <;> cases held <;> simp [ofJson]

theorem leaves_of_not_container {node : Node} (single : node.isContainer = false) :
    node.leaves = node.leaf?.toList.map fun value => ([], value) := by
  cases node with
  | absent | null | bool | number | string =>
    rw [leaves]
    rfl
  | array | object => cases single

theorem leaf?_ofJson {value : Json} (single : (ofJson value).isContainer = false) :
    (ofJson value).leaf? = some value := by
  cases value with
  | null | bool | number | string => simp [ofJson, leaf?]
  | array | object => simp [ofJson, isContainer, isArray, isObject] at single

theorem leaves_ofJson {value : Json} (single : (ofJson value).isContainer = false) :
    (ofJson value).leaves = [([], value)] := by
  rw [leaves_of_not_container single, leaf?_ofJson single]
  rfl

/-- A document in which tokens tell the children of every container apart. Objects have each name
once; arrays are no longer than their indexes reach. -/
def Addressable : Node → Prop
  | .array items => items.length ≤ 0x10000000000000000
  | .object fields => (Fields.names fields).Nodup
  | _ => True

theorem mem_children {node child : Node} {token : Token} (member : (token, child) ∈ node.children) :
    (∃ items, node = .array items ∧ child ∈ items) ∨
      ∃ fields, node = .object fields ∧ ∃ field ∈ fields, field.2 = child := by
  cases node with
  | absent | null | bool | number | string => cases member
  | array items =>
    obtain ⟨item, inside, same⟩ := List.mem_map.mp member
    cases same
    exact Or.inl ⟨items, rfl, List.mem_of_getElem? (List.mem_zipIdx_iff_getElem?.mp inside)⟩
  | object fields =>
    obtain ⟨field, inside, same⟩ := List.mem_map.mp member
    cases same
    exact Or.inr ⟨fields, rfl, field, inside, rfl⟩

theorem induction_children {motive : Node → Prop}
    (single : ∀ node : Node, node.isContainer = false → motive node)
    (container : ∀ node : Node, node.isContainer = true →
      (∀ child ∈ node.children, motive child.2) → motive node) (node : Node) : motive node := by
  induction node with
  | absent | null | bool | number | string => exact single _ rfl
  | array items each =>
    apply container _ rfl
    intro child member
    rcases mem_children member with ⟨others, same, inside⟩ | ⟨fields, same, -⟩
    · cases same
      exact each child.2 inside
    · cases same
  | object fields each =>
    apply container _ rfl
    intro child member
    rcases mem_children member with ⟨items, same, -⟩ | ⟨others, same, field, inside, value⟩
    · cases same
    · cases same
      exact value ▸ each field inside

theorem mem_children_of_item {items : List Node} {item : Node} {position : Nat}
    (found : items[position]? = some item) :
    (Token.index (Index.ofPosition position), item) ∈ (array items).children :=
  List.mem_map.mpr ⟨(item, position), List.mem_zipIdx_iff_getElem?.mpr found, rfl⟩

theorem mem_children_of_field {fields : List (String × Node)} {field : String × Node}
    (member : field ∈ fields) : (Token.key field.1, field.2) ∈ (object fields).children :=
  List.mem_map_of_mem member

theorem Occurs.of_child {part node : Node} {child : Token × Node} (member : child ∈ node.children)
    (inside : Occurs part child.2) : Occurs part node := by
  rcases mem_children member with ⟨items, rfl, item⟩ | ⟨fields, rfl, field, fieldMember, value⟩
  · exact .item item inside
  · exact .field fieldMember (value ▸ inside)

theorem Everywhere.child {holds : Node → Prop} {node : Node} (whole : Everywhere holds node)
    {child : Token × Node} (member : child ∈ node.children) : Everywhere holds child.2 :=
  fun part inside => whole part (.of_child member inside)

theorem everywhere_of_children {holds : Node → Prop} {node : Node} (here : holds node)
    (each : ∀ child ∈ node.children, Everywhere holds child.2) : Everywhere holds node := by
  refine everywhere_iff.mpr ⟨here, ?_⟩
  cases node with
  | absent | null | bool | number | string => trivial
  | array items =>
    intro item member
    obtain ⟨position, found⟩ := List.mem_iff_getElem?.mp member
    exact each _ (mem_children_of_item found)
  | object fields => exact fun field member => each _ (mem_children_of_field member)

theorem eq_some_of_getD {found : Option Node} {child : Node} (held : found.getD .absent = child)
    (present : child ≠ .absent) : found = some child := by
  cases found with
  | none => exact absurd held.symm present
  | some other => exact congrArg some held

theorem mem_children_iff {node child : Node} {token : Token} (addressable : node.Addressable)
    (present : child ≠ .absent) : (token, child) ∈ node.children ↔ node.slot token = child := by
  cases node with
  | absent | null | bool | number | string =>
    constructor
    · intro member
      cases member
    · intro held
      cases token <;> exact absurd held.symm present
  | array items =>
    constructor
    · intro member
      obtain ⟨item, inside, same⟩ := List.mem_map.mp member
      cases same
      have found := List.mem_zipIdx_iff_getElem?.mp inside
      obtain ⟨within, -⟩ := List.getElem?_eq_some_iff.mp found
      show items[(Index.ofPosition item.2).val]?.getD .absent = item.1
      rw [Index.val_ofPosition (Nat.lt_of_lt_of_le within addressable), found]
      rfl
    · intro held
      cases token with
      | key name => exact absurd held.symm present
      | index position =>
        have found : items[position.val]? = some child := eq_some_of_getD held present
        refine List.mem_map.mpr ⟨(child, position.val), List.mem_zipIdx_iff_getElem?.mpr found, ?_⟩
        rw [Index.ofPosition_val]
  | object fields =>
    constructor
    · intro member
      obtain ⟨field, inside, same⟩ := List.mem_map.mp member
      cases same
      show (Fields.get? field.1 fields).getD .absent = field.2
      rw [Fields.get?_of_mem addressable inside]
      rfl
    · intro held
      cases token with
      | index position => exact absurd held.symm present
      | key name =>
        have found : Fields.get? name fields = some child := eq_some_of_getD held present
        exact List.mem_map.mpr ⟨(name, child), Fields.mem_of_get?_eq_some found, rfl⟩

/-- The first of two tokens leads to a child that stands before the other one's: items stand in the
order of their indexes, fields in the order of their names. -/
def Earlier : Node → Token → Token → Prop
  | .array _, .index position, .index later => position < later
  | .object fields, .key name, .key later => [name, later].Sublist (Fields.names fields)
  | _, _, _ => False

theorem Earlier.ne {node : Node} (addressable : node.Addressable) {token later : Token}
    (earlier : node.Earlier token later) : token ≠ later := by
  rintro rfl
  cases node with
  | absent | null | bool | number | string => cases earlier
  | array items =>
    cases token with
    | key name => cases earlier
    | index position => exact absurd earlier (Nat.lt_irrefl position.val)
  | object fields =>
    cases token with
    | index position => cases earlier
    | key name =>
      have twice : [name, name].Nodup := addressable.sublist earlier
      simp at twice

theorem pairwise_earlier_children {node : Node} (addressable : node.Addressable) :
    node.children.Pairwise fun child other => node.Earlier child.1 other.1 := by
  cases node with
  | absent | null | bool | number | string => exact List.Pairwise.nil
  | object fields =>
    apply List.pairwise_map.mpr
    apply List.pairwise_iff_forall_sublist.mpr
    intro field other inOrder
    exact inOrder.map Prod.fst
  | array items =>
    apply List.pairwise_map.mpr
    have positions : items.zipIdx.Pairwise fun item other => item.2 < other.2 := by
      rw [← List.pairwise_map, List.zipIdx_map_snd]
      exact List.pairwise_lt_range'
    refine positions.imp_of_mem ?_
    intro item other member otherMember before
    have bound : items.length ≤ 0x10000000000000000 := addressable
    have last := (List.getElem?_eq_some_iff.mp (List.mem_zipIdx_iff_getElem?.mp otherMember)).1
    show (Index.ofPosition item.2).val < (Index.ofPosition other.2).val
    rw [Index.val_ofPosition (by omega), Index.val_ofPosition (by omega)]
    exact before

theorem mem_leaves_of_child {node : Node} {child : Token × Node} (member : child ∈ node.children)
    {leaf : Path × Json} (inside : leaf ∈ child.2.leaves) :
    Path.under child.1 leaf ∈ node.leaves := by
  have container : node.isContainer = true := by
    cases node with
    | absent | null | bool | number | string => cases member
    | array | object => rfl
  rw [leaves_of_container container]
  exact List.mem_flatMap.mpr ⟨child, member, List.mem_map_of_mem inside⟩

theorem forall_token_leaves {allowed : Token → Prop} {node : Node}
    (each : Everywhere (fun part => ∀ child ∈ part.children, allowed child.1) node) :
    ∀ leaf ∈ node.leaves, ∀ token ∈ leaf.1, allowed token := by
  induction node using induction_children with
  | single node single =>
    rw [leaves_of_not_container single]
    intro leaf member token occurs
    obtain ⟨value, -, same⟩ := List.mem_map.mp member
    subst same
    exact absurd occurs List.not_mem_nil
  | container node container below =>
    rw [leaves_of_container container]
    intro leaf member token occurs
    obtain ⟨child, inside, leafBelow⟩ := List.mem_flatMap.mp member
    obtain ⟨inner, innerMember, same⟩ := List.mem_map.mp leafBelow
    subst same
    rcases List.mem_cons.mp occurs with first | later
    · exact first ▸ (everywhere_iff.mp each).1 child inside
    · exact below child inside (each.child inside) inner innerMember token later

theorem mem_leaves_iff {node : Node} (addressable : Everywhere Addressable node) {path : Path}
    {value : Json} : (path, value) ∈ node.leaves ↔ (node.get? path).bind leaf? = some value := by
  induction node using induction_children generalizing path with
  | single node single =>
    rw [leaves_of_not_container single]
    cases path with
    | nil => cases node <;> simp [leaf?, present?, isAbsent, eq_comm]
    | cons token rest =>
      rw [get?_cons_of_not_container single]
      simp
  | container node container each =>
    have here := (everywhere_iff.mp addressable).1
    rw [leaves_of_container container, List.mem_flatMap]
    constructor
    · rintro ⟨child, member, inside⟩
      obtain ⟨leaf, leafMember, same⟩ := List.mem_map.mp inside
      cases same
      have found := (each child member (addressable.child member)).mp leafMember
      have present : child.2 ≠ .absent := by
        intro hole
        rw [hole, get?_absent] at found
        cases found
      rw [get?_cons_eq, (mem_children_iff here present).mp member]
      exact found
    · intro found
      cases path with
      | nil =>
        cases node with
        | absent | null | bool | number | string => cases container
        | array | object => cases found
      | cons token rest =>
        rw [get?_cons_eq] at found
        have present : node.slot token ≠ .absent := by
          intro hole
          rw [hole, get?_absent] at found
          cases found
        have member := (mem_children_iff here present).mpr rfl
        refine ⟨_, member, List.mem_map.mpr ⟨(rest, value), ?_, rfl⟩⟩
        exact (each _ member (addressable.child member)).mpr found

/-- At some container of the document the first path goes on to an earlier child than the other. -/
def Precedes (document : Node) (path other : Path) : Prop :=
  ∃ front token later container, document.get? front = some container ∧
    container.Earlier token later ∧ front ++ [token] <+: path ∧ front ++ [later] <+: other

theorem Precedes.apart {document : Node} (addressable : Everywhere Addressable document)
    {path other : Path} (precedes : document.Precedes path other) : Path.Apart path other := by
  obtain ⟨front, token, later, container, held, earlier, leads, otherLeads⟩ := precedes
  have here : container.Addressable := addressable.get? trivial held container .here
  exact Path.apart_of_ne (earlier.ne here) leads otherLeads

theorem Precedes.under {document child : Node} {token : Token} (held : document.slot token = child)
    {path other : Path} (precedes : child.Precedes path other) :
    document.Precedes (token :: path) (token :: other) := by
  obtain ⟨front, first, later, container, found, earlier, leads, otherLeads⟩ := precedes
  refine ⟨token :: front, first, later, container, ?_, earlier, ?_, ?_⟩
  · rw [get?_cons_eq, held]
    exact found
  · exact List.cons_prefix_cons.mpr ⟨rfl, leads⟩
  · exact List.cons_prefix_cons.mpr ⟨rfl, otherLeads⟩

theorem leaves_absent : Node.absent.leaves = [] := by rw [leaves]

theorem pairwise_precedes_leaves {node : Node} (addressable : Everywhere Addressable node) :
    node.leaves.Pairwise fun first second => node.Precedes first.1 second.1 := by
  induction node using induction_children with
  | single node single =>
    rw [leaves_of_not_container single]
    cases node.leaf? with
    | none => exact List.Pairwise.nil
    | some value => exact List.pairwise_singleton _ _
  | container node container each =>
    have here := (everywhere_iff.mp addressable).1
    have root : node.get? [] = some node := by
      rw [get?_nil, present?_of_ne_absent]
      rintro rfl
      cases container
    rw [leaves_of_container container, List.pairwise_flatMap]
    constructor
    · intro child member
      apply List.pairwise_map.mpr
      by_cases hole : child.2 = .absent
      · rw [hole, leaves_absent]
        exact List.Pairwise.nil
      · have held := (mem_children_iff here hole).mp member
        apply (each child member (addressable.child member)).imp
        intro first second precedes
        exact precedes.under held
    · apply (pairwise_earlier_children here).imp
      intro first second earlier firstLeaf firstMember secondLeaf secondMember
      obtain ⟨_, -, rfl⟩ := List.mem_map.mp firstMember
      obtain ⟨_, -, rfl⟩ := List.mem_map.mp secondMember
      exact ⟨[], first.1, second.1, node, root, earlier, List.prefix_append _ _,
        List.prefix_append _ _⟩

theorem pairwise_apart_leaves {node : Node} (addressable : Everywhere Addressable node) :
    node.leaves.Pairwise fun first second => Path.Apart first.1 second.1 :=
  (pairwise_precedes_leaves addressable).imp (Precedes.apart addressable)

/-- A scalar or a null occurs in the node. -/
def HasLeaf (node : Node) : Prop := ∃ part, Occurs part node ∧ part.leaf? ≠ none

theorem hasLeaf_iff {node : Node} : node.HasLeaf ↔ node.leaves ≠ [] := by
  constructor
  · rintro ⟨part, occurs, value⟩
    induction occurs with
    | here =>
      have single : part.isContainer = false := by
        cases part <;> first | rfl | exact absurd rfl value
      rw [leaves_of_not_container single]
      simpa using value
    | item member inside ih =>
      obtain ⟨leaf, below⟩ := List.exists_mem_of_ne_nil _ ih
      obtain ⟨position, found⟩ := List.mem_iff_getElem?.mp member
      exact List.ne_nil_of_mem (mem_leaves_of_child (mem_children_of_item found) below)
    | field member inside ih =>
      obtain ⟨leaf, below⟩ := List.exists_mem_of_ne_nil _ ih
      exact List.ne_nil_of_mem (mem_leaves_of_child (mem_children_of_field member) below)
  · intro leaves
    induction node using induction_children with
    | single node single =>
      rw [leaves_of_not_container single] at leaves
      refine ⟨node, .here, ?_⟩
      simpa using leaves
    | container node container each =>
      obtain ⟨leaf, member⟩ := List.exists_mem_of_ne_nil _ leaves
      rw [leaves_of_container container] at member
      obtain ⟨child, inside, below⟩ := List.mem_flatMap.mp member
      obtain ⟨inner, innerMember, -⟩ := List.mem_map.mp below
      obtain ⟨part, occurs, value⟩ := each child inside (List.ne_nil_of_mem innerMember)
      exact ⟨part, .of_child inside occurs, value⟩

end DocPath.Node
