import DocPath.Proofs.Document.Clean
import DocPath.Proofs.Flat.Copy

/-! Holes on their way through JSON. In a clean document holes stand between the items of arrays and
nowhere else; its JSON value has a null in each of these places and is otherwise the same. So flattening
the value lists the leaves of the document and, beside them, a null for every hole. -/

namespace DocPath.Node

/-- A slot of an array that was there before its end and that nothing was written to. -/
def Gap : Node → Token → Prop
  | .array items, .index position => items[position.val]? = some .absent
  | _, _ => False

/-- A hole stands at the path. -/
def HoleAt (document : Node) (path : Path) : Prop :=
  ∃ front token container, path = front ++ [token] ∧ document.get? front = some container ∧
    container.Gap token

theorem Gap.slot_eq {node : Node} {token : Token} (gap : node.Gap token) : node.slot token = .absent := by
  cases node with
  | absent | null | bool | number | string | object => cases gap
  | array items =>
    cases token with
    | key name => cases gap
    | index position =>
      show items[position.val]?.getD .absent = .absent
      rw [show items[position.val]? = some .absent from gap]
      rfl

theorem Gap.ne_absent {node : Node} {token : Token} (gap : node.Gap token) : node ≠ .absent := by
  intro hole
  rw [hole] at gap
  exact gap

theorem found_ne_absent {document found : Node} {path : Path} (held : document.get? path = some found) :
    found ≠ .absent := by
  have whole := get?_append document path []
  rw [List.append_nil, held, Option.bind_some, get?_nil] at whole
  exact (present?_eq_some_iff.mp whole.symm).1

theorem HoleAt.get?_eq_none {document : Node} {path : Path} (hole : document.HoleAt path) :
    document.get? path = none := by
  obtain ⟨front, token, container, split, held, gap⟩ := hole
  rw [split, get?_append, held, Option.bind_some, get?_cons_eq, gap.slot_eq, get?_absent]

theorem not_holeAt_nil (document : Node) : ¬document.HoleAt [] := by
  intro hole
  obtain ⟨front, token, container, split, -, -⟩ := hole
  simp at split

theorem holeAt_cons_iff {node : Node} {token : Token} {rest : Path} :
    node.HoleAt (token :: rest) ↔ rest = [] ∧ node.Gap token ∨ (node.slot token).HoleAt rest := by
  constructor
  · intro hole
    obtain ⟨front, last, container, split, held, gap⟩ := hole
    cases front with
    | nil =>
      obtain ⟨same, empty⟩ := List.cons.inj split
      obtain ⟨-, root⟩ := present?_eq_some_iff.mp held
      rw [root, same]
      exact Or.inl ⟨empty, gap⟩
    | cons first others =>
      obtain ⟨same, below⟩ := List.cons.inj split
      rw [get?_cons_eq, ← same] at held
      exact Or.inr ⟨others, last, container, below, held, gap⟩
  · intro parts
    rcases parts with ⟨empty, gap⟩ | hole
    · subst empty
      exact ⟨[], token, node, rfl, present?_of_ne_absent gap.ne_absent, gap⟩
    · obtain ⟨front, last, container, split, held, gap⟩ := hole
      subst split
      exact ⟨token :: front, last, container, rfl, by rw [get?_cons_eq]; exact held, gap⟩

theorem exists_get?_of_occurs {part document : Node} (addressable : Everywhere Addressable document)
    (present : part ≠ .absent) (occurs : Occurs part document) :
    ∃ path, document.get? path = some part := by
  have below : ∀ {node : Node} {child : Token × Node}, Everywhere Addressable node →
      child ∈ node.children → (∃ path, child.2.get? path = some part) →
      ∃ path, node.get? path = some part := by
    intro node child addressable member found
    obtain ⟨path, held⟩ := found
    have slot := (mem_children_iff (addressable _ .here) (ne_absent_of_get? held)).mp member
    exact ⟨child.1 :: path, by rw [get?_cons_eq, slot]; exact held⟩
  induction occurs with
  | here => exact ⟨[], present?_of_ne_absent present⟩
  | item member inside ih =>
    obtain ⟨position, found⟩ := List.mem_iff_getElem?.mp member
    exact below addressable (mem_children_of_item found)
      (ih ((everywhere_array_iff.mp addressable).2 _ member))
  | field member inside ih =>
    exact below addressable (mem_children_of_field member)
      (ih ((everywhere_object_iff.mp addressable).2 _ member))

theorem Clean.exists_array {document : Node} (clean : document.Clean) (hole : Occurs .absent document) :
    ∃ items, Occurs (.array items) document ∧ .absent ∈ items := by
  obtain ⟨present, interior⟩ := clean
  induction hole with
  | here => exact absurd rfl present
  | @item items item member inside ih =>
    by_cases absent : item = .absent
    · exact ⟨items, .here, absent ▸ member⟩
    · obtain ⟨others, occurs, held⟩ := ih absent ((everywhere_array_iff.mp interior).2 item member)
      exact ⟨others, .item member occurs, held⟩
  | @field fields field member inside ih =>
    obtain ⟨sealed, whole⟩ := everywhere_object_iff.mp interior
    obtain ⟨others, occurs, held⟩ := ih (sealed field member) (whole field member)
    exact ⟨others, .field member occurs, held⟩

theorem Clean.not_occurs_absent {document : Node} (clean : document.Clean)
    (dense : Everywhere Dense document) : ¬Occurs .absent document := by
  intro hole
  obtain ⟨items, occurs, held⟩ := clean.exists_array hole
  exact dense _ occurs held

theorem Clean.exists_holeAt {document : Node} (clean : document.Clean)
    (addressable : Everywhere Addressable document) (hole : Occurs .absent document) :
    ∃ path, document.HoleAt path := by
  obtain ⟨items, occurs, held⟩ := clean.exists_array hole
  obtain ⟨front, found⟩ := exists_get?_of_occurs addressable Node.noConfusion occurs
  obtain ⟨position, item⟩ := List.mem_iff_getElem?.mp held
  have within := (List.getElem?_eq_some_iff.mp item).1
  have short : items.length ≤ 0x10000000000000000 := addressable _ occurs
  refine ⟨front ++ [.index (Index.ofPosition position)], front, _, _, rfl, found, ?_⟩
  show items[(Index.ofPosition position).val]? = some .absent
  rw [Index.val_ofPosition (Nat.lt_of_lt_of_le within short)]
  exact item

theorem withoutHoles_ne_absent (node : Node) : node.withoutHoles ≠ .absent := by
  cases node <;> simp [withoutHoles]

theorem isContainer_withoutHoles (node : Node) : node.withoutHoles.isContainer = node.isContainer := by
  cases node <;> simp [withoutHoles, isContainer, isArray, isObject]

theorem withoutHoles_object {fields : List (String × Node)} (sealed : (object fields).Sealed) :
    (object fields).withoutHoles = .object (fields.map fun field => (field.1, field.2.withoutHoles)) := by
  rw [withoutHoles, filter_present sealed]

theorem slot_withoutHoles_of_present {node : Node} {token : Token} (sealed : node.Sealed)
    (present : node.slot token ≠ .absent) :
    node.withoutHoles.slot token = (node.slot token).withoutHoles := by
  cases node with
  | absent | null | bool | number | string => exact absurd (slot_of_not_container rfl token) present
  | object fields =>
    rw [withoutHoles_object sealed]
    cases token with
    | index position => exact absurd rfl present
    | key name =>
      cases found : Fields.get? name fields with
      | none => exact absurd (by simp [slot, found]) present
      | some child => simp [slot, Fields.get?_map, found]
  | array items =>
    rw [withoutHoles]
    cases token with
    | key name => exact absurd rfl present
    | index position =>
      have within := lt_length_of_slot present
      simp [slot, List.getElem?_eq_getElem within]

theorem slot_withoutHoles_of_gap {node : Node} {token : Token} (gap : node.Gap token) :
    node.withoutHoles.slot token = .null := by
  cases node with
  | absent | null | bool | number | string | object => cases gap
  | array items =>
    cases token with
    | key name => cases gap
    | index position =>
      have found : items[position.val]? = some .absent := gap
      rw [withoutHoles]
      simp [slot, found, withoutHoles]

theorem slot_withoutHoles_of_absent {node : Node} {token : Token} (sealed : node.Sealed)
    (missing : node.slot token = .absent) (noGap : ¬node.Gap token) :
    node.withoutHoles.slot token = .absent := by
  cases node with
  | absent | null | bool | number | string => cases token <;> simp [withoutHoles, slot]
  | object fields =>
    rw [withoutHoles_object sealed]
    cases token with
    | index position => rfl
    | key name =>
      cases found : Fields.get? name fields with
      | none => simp [slot, Fields.get?_map, found]
      | some child =>
        have hole : child = .absent := by simpa [slot, found] using missing
        exact absurd hole (sealed _ (Fields.mem_of_get?_eq_some found))
  | array items =>
    rw [withoutHoles]
    cases token with
    | key name => rfl
    | index position =>
      cases found : items[position.val]? with
      | none => simp [slot, found]
      | some item =>
        have hole : item = .absent := by simpa [slot, found] using missing
        exact absurd (show items[position.val]? = some .absent by rw [found, hole]) noGap

/-- Reading behind JSON finds what was found before, its holes filled in turn, and null where a hole
stood. -/
theorem get?_withoutHoles {node : Node} (clean : node.Clean) {path : Path} {found : Node} :
    node.withoutHoles.get? path = some found ↔
      (∃ inner, node.get? path = some inner ∧ inner.withoutHoles = found) ∨
        node.HoleAt path ∧ found = .null := by
  induction path generalizing node with
  | nil =>
    rw [get?_nil, get?_nil, present?_of_ne_absent (withoutHoles_ne_absent node),
      present?_of_ne_absent clean.present]
    simp [not_holeAt_nil]
  | cons token rest ih =>
    obtain ⟨sealed, inside⟩ := everywhere_iff.mp clean.interior
    rw [get?_cons_eq, get?_cons_eq, holeAt_cons_iff]
    by_cases missing : node.slot token = .absent
    · have nothing : ¬(Node.absent).HoleAt rest := by
        intro hole
        obtain ⟨front, last, container, -, held, -⟩ := hole
        rw [get?_absent] at held
        cases held
      rw [missing, get?_absent]
      by_cases gap : node.Gap token
      · rw [slot_withoutHoles_of_gap gap]
        cases rest with
        | nil => simp [present?, isAbsent, gap, not_holeAt_nil, eq_comm]
        | cons other others =>
          rw [get?_cons_of_not_container rfl]
          simp [nothing]
      · rw [slot_withoutHoles_of_absent sealed missing gap, get?_absent]
        simp [gap, nothing]
    · have noGap : ¬node.Gap token := fun gap => missing gap.slot_eq
      rw [slot_withoutHoles_of_present sealed missing, ih ⟨missing, inside.slot trivial token⟩]
      simp [noGap]

theorem everywhere_withoutHoles {before after : Node → Prop}
    (each : ∀ node, before node → after node.withoutHoles) {node : Node}
    (whole : Everywhere before node) : Everywhere after node.withoutHoles := by
  refine everywhere_of_childwise (fun node single => ?_) (fun items => ?_) (fun fields => ?_) each whole
  · rw [isContainer_withoutHoles]
    exact single
  · refine ⟨_, by rw [withoutHoles], fun item member => ?_⟩
    obtain ⟨origin, inside, same⟩ := List.mem_map.mp member
    exact ⟨origin, inside, same⟩
  · refine ⟨_, by rw [withoutHoles], fun field member => ?_⟩
    obtain ⟨origin, inside, same⟩ := List.mem_map.mp member
    exact ⟨origin, (List.mem_filter.mp inside).1, congrArg Prod.snd same⟩

theorem addressable_withoutHoles {node : Node} (addressable : node.Addressable) :
    node.withoutHoles.Addressable := by
  cases node with
  | absent | null | bool | number | string => simp [withoutHoles, Addressable]
  | array items =>
    rw [withoutHoles]
    show (items.map _).length ≤ _
    rw [List.length_map]
    exact addressable
  | object fields =>
    rw [withoutHoles]
    show (Fields.names _).Nodup
    rw [Fields.names_map]
    exact Fields.nodup_names_filter addressable _

theorem writableNames_withoutHoles {node : Node} (writable : node.WritableNames) :
    node.withoutHoles.WritableNames := by
  cases node with
  | absent | null | bool | number | string | array => simp [withoutHoles, WritableNames]
  | object fields =>
    rw [withoutHoles]
    intro field member
    obtain ⟨origin, inside, same⟩ := List.mem_map.mp member
    subst same
    exact writable origin (List.mem_filter.mp inside).1

theorem leaf?_withoutHoles {node : Node} (present : node ≠ .absent) :
    node.withoutHoles.leaf? = node.leaf? := by
  cases node with
  | absent => exact absurd rfl present
  | null | bool | number | string | array | object => simp [withoutHoles, leaf?]

/-- The paths of the holes: what the JSON value of the document has a leaf at and the document has not. -/
def holes (document : Node) : List Path :=
  (document.withoutHoles.leaves.map Prod.fst).filter fun place => (document.get? place).isNone

theorem nodup_holes {document : Node} (addressable : Everywhere Addressable document) :
    document.holes.Nodup := by
  have shown := everywhere_withoutHoles (fun _ => addressable_withoutHoles) addressable
  apply List.Nodup.filter
  exact List.pairwise_map.mpr ((pairwise_apart_leaves shown).imp Path.Apart.ne)

section
variable {document : Node} (clean : document.Clean) (addressable : Everywhere Addressable document)
include clean addressable

theorem mem_leaves_withoutHoles_iff {path : Path} {value : Json} :
    (path, value) ∈ document.withoutHoles.leaves ↔
      (path, value) ∈ document.leaves ∨ document.HoleAt path ∧ value = .null := by
  have shown := everywhere_withoutHoles (fun _ => addressable_withoutHoles) addressable
  rw [mem_leaves_iff shown, mem_leaves_iff addressable, Option.bind_eq_some_iff, Option.bind_eq_some_iff]
  constructor
  · intro found
    obtain ⟨node, held, leaf⟩ := found
    rcases (get?_withoutHoles clean).mp held with ⟨inner, before, same⟩ | ⟨hole, null⟩
    · rw [← same, leaf?_withoutHoles (found_ne_absent before)] at leaf
      exact Or.inl ⟨inner, before, leaf⟩
    · rw [null] at leaf
      exact Or.inr ⟨hole, (Option.some.inj leaf).symm⟩
  · intro found
    rcases found with ⟨inner, before, leaf⟩ | ⟨hole, null⟩
    · refine ⟨inner.withoutHoles, (get?_withoutHoles clean).mpr (Or.inl ⟨inner, before, rfl⟩), ?_⟩
      rw [leaf?_withoutHoles (found_ne_absent before)]
      exact leaf
    · exact ⟨.null, (get?_withoutHoles clean).mpr (Or.inr ⟨hole, rfl⟩), congrArg some null.symm⟩

theorem mem_holes_iff {place : Path} : place ∈ document.holes ↔ document.HoleAt place := by
  rw [holes, List.mem_filter, List.mem_map, Option.isNone_iff_eq_none]
  constructor
  · intro parts
    obtain ⟨⟨leaf, member, rfl⟩, missing⟩ := parts
    rcases (mem_leaves_withoutHoles_iff clean addressable).mp member with before | ⟨hole, -⟩
    · rw [mem_leaves_iff addressable, missing] at before
      cases before
    · exact hole
  · intro hole
    have listed := (mem_leaves_withoutHoles_iff clean addressable).mpr (Or.inr ⟨hole, rfl⟩)
    exact ⟨⟨_, listed, rfl⟩, hole.get?_eq_none⟩

theorem leaves_withoutHoles_perm :
    document.withoutHoles.leaves.Perm
      (document.leaves ++ document.holes.map fun place => (place, Json.null)) := by
  have shown := everywhere_withoutHoles (fun _ => addressable_withoutHoles) addressable
  have nulls : (document.holes.map fun place => (place, Json.null)).Nodup :=
    (nodup_holes addressable).map fun _ _ same => congrArg Prod.fst same
  have separate : ∀ leaf ∈ document.leaves,
      ∀ null ∈ document.holes.map fun place => (place, Json.null), leaf ≠ null := by
    intro leaf member null nullMember same
    obtain ⟨place, inside, rfl⟩ := List.mem_map.mp nullMember
    have missing := ((mem_holes_iff clean addressable).mp inside).get?_eq_none
    rw [same, mem_leaves_iff addressable, missing] at member
    cases member
  have once := Path.nodup_of_apart (pairwise_apart_leaves addressable)
  apply (List.perm_ext_iff_of_nodup (Path.nodup_of_apart (pairwise_apart_leaves shown))
    (List.nodup_append.mpr ⟨once, nulls, separate⟩)).mpr
  intro leaf
  rw [List.mem_append, List.mem_map, mem_leaves_withoutHoles_iff clean addressable]
  refine or_congr_right ⟨?_, ?_⟩
  · intro parts
    exact ⟨leaf.1, (mem_holes_iff clean addressable).mpr parts.1, Prod.ext rfl parts.2.symm⟩
  · intro parts
    obtain ⟨place, inside, rfl⟩ := parts
    exact ⟨(mem_holes_iff clean addressable).mp inside, rfl⟩

theorem holes_eq_nil_iff : document.holes = [] ↔ ¬Occurs .absent document := by
  constructor
  · intro none hole
    obtain ⟨place, holeAt⟩ := clean.exists_holeAt addressable hole
    have listed := (mem_holes_iff clean addressable).mpr holeAt
    rw [none] at listed
    cases listed
  · intro whole
    have same := (leaves_withoutHoles_perm clean addressable).length_eq
    rw [withoutHoles_eq_self_iff.mpr whole, List.length_append, List.length_map] at same
    exact List.eq_nil_of_length_eq_zero (by omega)

theorem entries_flatten_withoutHoles_perm (writable : Everywhere WritableNames document) :
    document.withoutHoles.flatten.entries.Perm
      (document.flatten.entries ++ document.holes.map fun place => (Path.text place, Json.null)) := by
  rw [entries_flatten (everywhere_withoutHoles (fun _ => addressable_withoutHoles) addressable)
    (everywhere_withoutHoles (fun _ => writableNames_withoutHoles) writable),
    entries_flatten addressable writable]
  have moved := (leaves_withoutHoles_perm clean addressable).map
    fun leaf : Path × Json => (Path.text leaf.1, leaf.2)
  rw [List.map_append, List.map_map] at moved
  exact moved

end

/-- A flat map read as a JSON value. The compacted value is the document that is built, down to the order
of its fields. Without compaction the value has a null in every hole, so its flat map has the entries of
the document and one more for each hole, and no more than these entries exactly if there is no hole. -/
theorem holes_become_nulls {flat : FlatMap} {compact : Bool} {document : Node}
    (built : flat.build compact = .ok document) :
    ∃ value : Json, Typed.fromFlat flat compact = .ok value ∧
      (compact = true → ofJson value = document ∧ Typed.toFlat value = .ok document.flatten) ∧
      (compact = false → (∀ entry ∈ flat.entries, (ofJson entry.2).isContainer = false) →
        ∃ shown, Typed.toFlat value = .ok shown ∧
          shown.entries.Perm
            (document.flatten.entries ++ document.holes.map fun place => (Path.text place, Json.null)) ∧
          document.holes.Nodup ∧ (∀ place, place ∈ document.holes ↔ document.HoleAt place) ∧
          (shown.entries.Perm document.flatten.entries ↔ ¬Occurs .absent document)) := by
  have clean := clean_of_build built
  have read : Typed.fromFlat flat compact = .ok document.toJson := by
    rw [Typed.fromFlat, built]
    rfl
  have shown : Typed.toFlat document.toJson = .ok document.withoutHoles.flatten := by
    rw [← ofJson_toJson]
    rfl
  refine ⟨document.toJson, read, ?_, ?_⟩
  · intro compacted
    subst compacted
    have whole := withoutHoles_eq_self_iff.mpr (clean.not_occurs_absent (everywhere_dense_of_build built))
    exact ⟨(ofJson_toJson document).trans whole, shown.trans (by rw [whole])⟩
  · intro _ single
    have parts := (built_of_build single built).2
    have addressable := everywhere_addressable (parts.mono fun _ => And.left) (parts.mono fun _ => And.right)
    have writable : Everywhere WritableNames document := parts.mono fun _ part => part.1.writableNames
    have listed := entries_flatten_withoutHoles_perm clean addressable writable
    refine ⟨_, shown, listed, nodup_holes addressable,
      fun place => mem_holes_iff clean addressable, ?_⟩
    rw [← holes_eq_nil_iff clean addressable]
    constructor
    · intro same
      have lengths := (same.symm.trans listed).length_eq
      rw [List.length_append, List.length_map] at lengths
      exact List.eq_nil_of_length_eq_zero (by omega)
    · intro none
      rw [none, List.map_nil, List.append_nil] at listed
      exact listed

theorem holes_become_nulls_nested :
    let flat := FlatMap.ofList [("a[1][2]", Json.bool true), ("a[3]", .null)]
    let document := object [("a", array [absent, array [absent, absent, bool true], absent, null])]
    let dense := object [("a", array [array [bool true], null])]
    flat.build false = .ok document ∧ flat.build true = .ok dense ∧
      (∃ value : Json, Typed.fromFlat flat true = .ok value ∧ ofJson value = dense ∧
        Typed.toFlat value = .ok dense.flatten) ∧
      ∃ (value : Json) (shown : FlatMap), Typed.fromFlat flat false = .ok value ∧
        Typed.toFlat value = .ok shown ∧
        shown.entries.Perm [("a[1][2]", .bool true), ("a[3]", .null), ("a[0]", .null), ("a[1][0]", .null),
          ("a[1][1]", .null), ("a[2]", .null)] ∧
        ¬shown.entries.Perm document.flatten.entries := by
  intro flat document dense
  have read : FlatMap.locate flat.entries = .ok [([.key "a", .index 1, .index 2], .bool true),
      ([.key "a", .index 3], .null)] := rfl
  have written : absent.setAll ([([Token.key "a", .index 1, .index 2], Json.bool true),
      ([.key "a", .index 3], .null)].map asWrite) = .ok document := by
    simp only [List.map_cons, List.map_nil, asWrite, ofJson]
    rfl
  have built : flat.build false = .ok document :=
    (FlatMap.build_eq_ok_iff_of_located read (List.cons_ne_nil _ _)).mpr ⟨document, written, rfl⟩
  have builtDense : flat.build true = .ok dense := by
    refine (FlatMap.build_eq_ok_iff_of_located read (List.cons_ne_nil _ _)).mpr ⟨document, written, ?_⟩
    simp [document, dense, compact, isAbsent]
  have single : ∀ entry ∈ flat.entries, (ofJson entry.2).isContainer = false := by
    simp [flat, FlatMap.ofList, FlatMap.insert, Fields.put, FlatMap.empty, ofJson, isContainer, isArray,
      isObject]
  have places : document.holes = [[.key "a", .index 0], [.key "a", .index 1, .index 0],
      [.key "a", .index 1, .index 1], [.key "a", .index 2]] := by
    have leaves : document.withoutHoles.leaves.map Prod.fst = [[.key "a", .index 0],
        [.key "a", .index 1, .index 0], [.key "a", .index 1, .index 1], [.key "a", .index 1, .index 2],
        [.key "a", .index 2], [.key "a", .index 3]] := by
      simp [document, withoutHoles, leaves, isAbsent, Path.under]
      decide
    rw [holes, leaves]
    rfl
  have listed : document.flatten.entries = [("a[1][2]", .bool true), ("a[3]", .null)] := by
    simp [document, flatten, leaves, FlatMap.entries_ofList]
    rfl
  have hole : Occurs .absent document := .field List.mem_cons_self (.item List.mem_cons_self .here)
  obtain ⟨whole, readWhole, same, -⟩ := holes_become_nulls builtDense
  obtain ⟨value, readValue, -, more⟩ := holes_become_nulls built
  obtain ⟨shown, shownValue, perm, -, -, coincide⟩ := more rfl single
  rw [listed, places] at perm
  exact ⟨built, builtDense, ⟨whole, readWhole, same rfl⟩, value, shown, readValue, shownValue, perm,
    fun none => coincide.mp none hole⟩

end DocPath.Node
