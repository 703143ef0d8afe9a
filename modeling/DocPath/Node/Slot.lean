import DocPath.Node
import DocPath.Path

/-! The slots of a container. A token names a slot in every container that it can step into; a slot
that nothing was written to is absent, and so is one that does not exist. Two laws are all that
reading after writing needs: the written slot holds the child, and every other slot is kept. -/

namespace DocPath.Node

def fits (node : Node) (token : Token) : Bool :=
  match node, token with
  | .object _, .key _ => true
  | .array _, .index _ => true
  | _, _ => false

/-- The slot that a token names, which is absent if there is none. A hole is such a slot too. -/
def slot (node : Node) (token : Token) : Node :=
  match node, token with
  | .object fields, .key name => (Fields.get? name fields).getD .absent
  | .array items, .index position => items[position.val]?.getD .absent
  | _, _ => .absent

def present? (node : Node) : Option Node := if node.isAbsent then none else some node

/-- What is stored under a token, be it a hole. -/
def stored? (node : Node) (token : Token) : Option Node :=
  match node, token with
  | .object fields, .key name => Fields.get? name fields
  | .array items, .index position => items[position.val]?
  | _, _ => none

/-- The child that a token names, which is none if a hole is stored there. -/
def child? (node : Node) (token : Token) : Option Node := (node.stored? token).bind present?

/-- The slot of a token, looked up in order to change it: the node in it, and the container around any other
node put there. -/
def lookup? (container : Node) (token : Token) : Option (Node × (Node → Node)) :=
  match container, token with
  | .object fields, .key name =>
      (Fields.get? name fields).map fun child =>
        (child, fun other => .object (Fields.put name other fields))
  | .array items, .index position =>
      items[position.val]?.map fun child => (child, fun other => .array (items.set position.val other))
  | _, _ => none

def containerFor : Token → Node
  | .key _ => .object []
  | .index _ => .array []

/-- A slot made ready for a token: a hole becomes a container, everything else stays. -/
def opened (node : Node) (token : Token) : Node :=
  if node.isAbsent then containerFor token else node

def padTo (length : Nat) (items : List Node) : List Node :=
  items ++ List.replicate (length - items.length) .absent

/-- The container with a child in the slot that a token names; an array is padded up to it. A node
that the token cannot step into stays as it is. -/
def withSlot (node : Node) (token : Token) (child : Node) : Node :=
  match node, token with
  | .object fields, .key name => .object (Fields.put name child fields)
  | .array items, .index position => .array ((padTo (position + 1) items).set position child)
  | other, _ => other

theorem present?_of_ne_absent {node : Node} (present : node ≠ .absent) :
    node.present? = some node := by
  unfold present?
  rw [if_neg]
  exact fun hole => present (isAbsent_iff.mp hole)

theorem present?_eq_some_iff {node found : Node} :
    node.present? = some found ↔ node ≠ .absent ∧ node = found := by
  by_cases hole : node = .absent
  · simp [hole, present?, isAbsent]
  · simp [hole, present?_of_ne_absent hole]

@[simp] theorem present?_absent : Node.absent.present? = none := rfl

theorem slot_eq_stored? (node : Node) (token : Token) :
    node.slot token = (node.stored? token).getD .absent := by
  cases node <;> cases token <;> rfl

theorem bind_present?_getD (stored : Option Node) :
    (stored.getD .absent).present? = stored.bind present? := by
  cases stored <;> rfl

theorem child?_eq (node : Node) (token : Token) : node.child? token = (node.slot token).present? := by
  rw [slot_eq_stored?, bind_present?_getD]
  rfl

theorem child?_eq_some_iff {node child : Node} {token : Token} :
    node.child? token = some child ↔ child ≠ .absent ∧ node.slot token = child := by
  rw [child?_eq, present?_eq_some_iff]
  constructor
  · intro held
    exact ⟨held.2 ▸ held.1, held.2⟩
  · intro held
    exact ⟨held.2.symm ▸ held.1, held.2⟩

@[simp] theorem slot_absent (token : Token) : Node.absent.slot token = .absent := by
  cases token <;> rfl

theorem fits_iff {node : Node} {token : Token} :
    node.fits token = true ↔ (∃ fields name, node = .object fields ∧ token = .key name) ∨
      ∃ items position, node = .array items ∧ token = .index position := by
  cases node <;> cases token <;> simp [fits]

theorem slot_of_not_fits {node : Node} {token : Token} (unfit : node.fits token = false) :
    node.slot token = .absent := by
  cases node <;> cases token <;> first | rfl | cases unfit

theorem fits_of_slot {node : Node} {token : Token} (present : node.slot token ≠ .absent) :
    node.fits token = true := by
  rw [← Bool.not_eq_false]
  exact fun unfit => present (slot_of_not_fits unfit)

theorem lt_length_of_slot {items : List Node} {position : Index}
    (present : (array items).slot (.index position) ≠ .absent) : position.val < items.length :=
  Decidable.by_contra fun beyond =>
    present (by simp [slot, List.getElem?_eq_none (Nat.not_lt.mp beyond)])

theorem slot_of_not_container {node : Node} (single : node.isContainer = false) (token : Token) :
    node.slot token = .absent := by
  cases node with
  | absent | null | bool | number | string => cases token <;> rfl
  | array | object => cases single

theorem ne_absent_of_slot {node : Node} {token : Token} (present : node.slot token ≠ .absent) :
    node ≠ .absent := by
  rintro rfl
  exact present (slot_absent token)

theorem ne_absent_of_fits {node : Node} {token : Token} (fit : node.fits token = true) :
    node ≠ .absent := by
  rintro rfl
  cases token <;> cases fit

theorem fits_eq_of_isKey_eq {token other : Token} (kinds : token.isKey = other.isKey) (node : Node) :
    node.fits token = node.fits other := by
  cases token <;> cases other <;> cases node <;> first | rfl | cases kinds

theorem isKey_eq_of_fits {node : Node} {token other : Token} (fit : node.fits token = true)
    (otherFit : node.fits other = true) : token.isKey = other.isKey := by
  rcases fits_iff.mp fit with ⟨fields, name, rfl, rfl⟩ | ⟨items, position, rfl, rfl⟩
  · cases other with
    | key place => rfl
    | index place => simp [fits] at otherFit
  · cases other with
    | key place => simp [fits] at otherFit
    | index place => rfl

theorem opened_of_ne_absent {node : Node} (present : node ≠ .absent) (token : Token) :
    node.opened token = node := by
  rw [opened, if_neg]
  exact fun hole => present (isAbsent_iff.mp hole)

@[simp] theorem opened_absent (token : Token) : Node.absent.opened token = containerFor token := rfl

theorem holds_opened {holds : Node → Prop} {node : Node} {token : Token}
    (empty : holds (containerFor token)) (here : holds node) : holds (node.opened token) := by
  by_cases hole : node = .absent
  · subst hole
    exact empty
  · rw [opened_of_ne_absent hole]
    exact here

theorem fits_containerFor (token : Token) : (containerFor token).fits token = true := by
  cases token <;> rfl

@[simp] theorem slot_opened (node : Node) (token other : Token) :
    (node.opened token).slot other = node.slot other := by
  by_cases hole : node = .absent
  · subst hole
    cases token <;> cases other <;> rfl
  · rw [opened_of_ne_absent hole]

theorem length_padTo (length : Nat) (items : List Node) :
    (padTo length items).length = max items.length length := by
  rw [padTo, List.length_append, List.length_replicate]
  omega

theorem getElem?_padTo (length : Nat) (items : List Node) (position : Nat) :
    (padTo length items)[position]? =
      if position < items.length then items[position]?
      else if position < length then some .absent else none := by
  rw [padTo, List.getElem?_append, List.getElem?_replicate]
  split
  · rfl
  · rename_i beyond
    have shift : position - items.length < length - items.length ↔ position < length := by omega
    simp only [shift]

theorem padTo_of_le {length : Nat} {items : List Node} (enough : length ≤ items.length) :
    padTo length items = items := by
  rw [padTo, Nat.sub_eq_zero_of_le enough]
  exact List.append_nil items

theorem getD_padTo (length : Nat) (items : List Node) (position : Nat) :
    (padTo length items)[position]?.getD .absent = items[position]?.getD .absent := by
  rw [getElem?_padTo]
  split
  · rfl
  · rename_i beyond
    rw [List.getElem?_eq_none (Nat.not_lt.mp beyond)]
    split <;> rfl

theorem withSlot_cases {holds : Node → Prop} {node child : Node} {token : Token} (here : holds node)
    (field : ∀ fields name, node = .object fields → token = .key name →
      holds (.object (Fields.put name child fields)))
    (item : ∀ items position, node = .array items → token = .index position →
      holds (.array ((padTo (position + 1) items).set position child))) :
    holds (node.withSlot token child) := by
  cases node with
  | absent | null | bool | number | string => exact here
  | object fields =>
    cases token with
    | key name => exact field fields name rfl rfl
    | index position => exact here
  | array items =>
    cases token with
    | key name => exact here
    | index position => exact item items position rfl rfl

@[simp] theorem fits_withSlot (node : Node) (token : Token) (child : Node) (other : Token) :
    (node.withSlot token child).fits other = node.fits other := by
  cases node <;> cases token <;> cases other <;> rfl

theorem slot_withSlot_self {node : Node} {token : Token} (fit : node.fits token = true)
    (child : Node) : (node.withSlot token child).slot token = child := by
  rcases fits_iff.mp fit with ⟨fields, name, rfl, rfl⟩ | ⟨items, position, rfl, rfl⟩
  · simp [withSlot, slot]
  · have within : position.val < (padTo (position + 1) items).length := by
      rw [length_padTo]
      omega
    simp [withSlot, slot, List.getElem?_set_self within]

theorem slot_withSlot_of_ne {token other : Token} (differ : other ≠ token) (node child : Node) :
    (node.withSlot token child).slot other = node.slot other := by
  cases node with
  | absent | null | bool | number | string => cases token <;> rfl
  | object fields =>
    cases token with
    | index position => rfl
    | key name =>
      cases other with
      | index place => rfl
      | key place =>
        have names : place ≠ name := fun same => differ (congrArg Token.key same)
        simp [withSlot, slot, Fields.get?_put_of_ne names]
  | array items =>
    cases token with
    | key name => rfl
    | index position =>
      cases other with
      | key place => rfl
      | index place =>
        have positions : position.val ≠ place.val :=
          fun same => differ (congrArg Token.index (Fin.ext same.symm))
        simp [withSlot, slot, List.getElem?_set_ne positions, getD_padTo]

theorem withSlot_slot {node : Node} {token : Token} (present : node.slot token ≠ .absent) :
    node.withSlot token (node.slot token) = node := by
  cases node with
  | absent | null | bool | number | string => cases token <;> rfl
  | object fields =>
    cases token with
    | index position => rfl
    | key name =>
      cases found : Fields.get? name fields with
      | none => exact absurd (by simp [slot, found]) present
      | some child => simp [withSlot, slot, found, Fields.put_of_get? found]
  | array items =>
    cases token with
    | key name => rfl
    | index position =>
      have within := lt_length_of_slot present
      simp [withSlot, slot, padTo_of_le (Nat.succ_le_of_lt within), List.getElem?_eq_getElem within]

theorem withSlot_withSlot (node : Node) (token : Token) (first second : Node) :
    (node.withSlot token first).withSlot token second = node.withSlot token second := by
  cases node with
  | absent | null | bool | number | string => cases token <;> rfl
  | object fields =>
    cases token with
    | index position => rfl
    | key name => simp [withSlot, Fields.put_put]
  | array items =>
    cases token with
    | key name => rfl
    | index position =>
      have enough : position.val + 1 ≤ ((padTo (position + 1) items).set position first).length := by
        rw [List.length_set, length_padTo]
        omega
      simp [withSlot, padTo_of_le enough]

/-- Putting another node where something is stored is writing the slot. -/
theorem lookup?_eq (container : Node) (token : Token) :
    container.lookup? token =
      (container.stored? token).map fun child => (child, container.withSlot token) := by
  cases container with
  | absent | null | bool | number | string => cases token <;> rfl
  | object fields => cases token <;> rfl
  | array items =>
    cases token with
    | key name => rfl
    | index position =>
      apply Option.map_congr
      intro child held
      have within : position.val < items.length := (List.getElem?_eq_some_iff.mp held).1
      have same : (fun other => array (items.set position.val other)) =
          (array items).withSlot (.index position) := by
        funext other
        rw [withSlot, padTo_of_le (Nat.succ_le_of_lt within)]
      rw [same]

end DocPath.Node
