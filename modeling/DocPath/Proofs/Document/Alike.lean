import Mathlib.Data.List.Perm.Subperm
import DocPath.Data.OptionExcept
import DocPath.Node.Compact
import DocPath.Node.Compare
import DocPath.Proofs.Document.Everywhere

/-! Documents that are alike. Where every object has each name once, two documents are equal exactly
if they are of one kind and hold equal children in every slot, whatever the order of the fields. So
equality is kept by everything that works slot by slot: by a write, whether it finishes or not, and
by compaction. -/

namespace DocPath

namespace Node

theorem sameItems_iff {items others : List Node} :
    sameItems items others = true ↔ List.Forall₂ (fun item other => item.same other = true) items others := by
  induction items generalizing others with
  | nil => cases others <;> simp [sameItems]
  | cons item rest ih => cases others <;> simp [sameItems, ih]

theorem sameFields_iff {fields others : List (String × Node)} :
    sameFields fields others = true ↔ ∀ field ∈ fields, ∃ other,
      Fields.get? field.1 others = some other ∧ field.2.same other = true := by
  induction fields with
  | nil => simp [sameFields]
  | cons field rest ih =>
    rw [sameFields.eq_def]
    cases found : Fields.get? field.1 others <;> simp [ih, found]

theorem same_object_iff {fields others : List (String × Node)} :
    (object fields).same (object others) = true ↔
      fields.length = others.length ∧ ∀ field ∈ fields, ∃ other,
        Fields.get? field.1 others = some other ∧ field.2.same other = true := by
  rw [same, Bool.and_eq_true, beq_iff_eq, sameFields_iff]

/-- Equal documents whose objects have each name once. -/
structure Alike (left right : Node) : Prop where
  same : left.same right = true
  distinctLeft : Everywhere DistinctNames left
  distinctRight : Everywhere DistinctNames right

theorem alike_array_iff {items others : List Node} :
    Alike (array items) (array others) ↔
      ∀ position : Nat, Option.Rel Alike items[position]? others[position]? := by
  constructor
  · intro alike
    have equal : List.Forall₂ (fun item other => item.same other = true) items others :=
      sameItems_iff.mp (by simpa [Node.same] using alike.same)
    have left := (everywhere_array_iff.mp alike.distinctLeft).2
    have right := (everywhere_array_iff.mp alike.distinctRight).2
    intro position
    refine Option.Rel.imp_of_mem ?_ (List.forall₂_iff_rel_getElem?.mp equal position)
    intro item found other otherFound here
    exact ⟨here, left item (List.mem_of_getElem? found), right other (List.mem_of_getElem? otherFound)⟩
  · intro each
    have all := List.forall₂_iff_rel_getElem?.mpr each
    refine ⟨?_, everywhere_array_iff.mpr ⟨trivial, ?_⟩, everywhere_array_iff.mpr ⟨trivial, ?_⟩⟩
    · rw [Node.same]
      exact sameItems_iff.mpr (all.imp fun item other => Alike.same)
    · intro item member
      obtain ⟨position, found⟩ := List.mem_iff_getElem?.mp member
      obtain ⟨other, -, alike⟩ := Option.Rel.exists_right (found ▸ each position)
      exact alike.distinctLeft
    · intro other member
      obtain ⟨position, found⟩ := List.mem_iff_getElem?.mp member
      obtain ⟨item, -, alike⟩ := Option.Rel.exists_left (found ▸ each position)
      exact alike.distinctRight

theorem names_perm_of_subset {fields others : List (String × Node)}
    (distinct : (Fields.names fields).Nodup) (length : fields.length = others.length)
    (included : Fields.names fields ⊆ Fields.names others) :
    (Fields.names fields).Perm (Fields.names others) := by
  apply (List.subperm_of_subset distinct included).perm_of_length_le
  simp [Fields.names, length]

theorem names_perm_of_rel {related : Node → Node → Prop} {fields others : List (String × Node)}
    (left : (Fields.names fields).Nodup) (right : (Fields.names others).Nodup)
    (each : ∀ name, Option.Rel related (Fields.get? name fields) (Fields.get? name others)) :
    (Fields.names fields).Perm (Fields.names others) := by
  apply (List.perm_ext_iff_of_nodup left right).mpr
  intro name
  rw [Fields.mem_names_iff, Fields.mem_names_iff]
  constructor
  · rintro ⟨value, found⟩
    obtain ⟨other, otherFound, -⟩ := Option.Rel.exists_right (found ▸ each name)
    exact ⟨other, otherFound⟩
  · rintro ⟨other, found⟩
    obtain ⟨value, valueFound, -⟩ := Option.Rel.exists_left (found ▸ each name)
    exact ⟨value, valueFound⟩

theorem alike_object_iff {fields others : List (String × Node)} :
    Alike (object fields) (object others) ↔
      ((Fields.names fields).Nodup ∧ (Fields.names others).Nodup) ∧
        ∀ name, Option.Rel Alike (Fields.get? name fields) (Fields.get? name others) := by
  constructor
  · intro alike
    obtain ⟨length, equal⟩ := same_object_iff.mp alike.same
    obtain ⟨left, insideLeft⟩ := everywhere_object_iff.mp alike.distinctLeft
    obtain ⟨right, insideRight⟩ := everywhere_object_iff.mp alike.distinctRight
    refine ⟨⟨left, right⟩, ?_⟩
    have among := names_perm_of_subset left length (by
      intro name member
      obtain ⟨field, inside, rfl⟩ := List.mem_map.mp member
      obtain ⟨other, found, -⟩ := equal field inside
      exact Fields.mem_names_iff.mpr ⟨other, found⟩)
    intro name
    cases found : Fields.get? name fields with
    | none =>
      have missing := Fields.get?_eq_none_iff.mp found
      rw [Fields.get?_eq_none_iff.mpr fun member => missing (among.mem_iff.mpr member)]
      exact .none
    | some value =>
      have member := Fields.mem_of_get?_eq_some found
      obtain ⟨other, otherFound, here⟩ := equal _ member
      rw [show Fields.get? name others = some other from otherFound]
      exact .some ⟨here, insideLeft _ member, insideRight _ (Fields.mem_of_get?_eq_some otherFound)⟩
  · rintro ⟨⟨left, right⟩, each⟩
    have held : ∀ field ∈ fields, ∃ other,
        Fields.get? field.1 others = some other ∧ Alike field.2 other :=
      fun field member => Option.Rel.exists_right (Fields.get?_of_mem left member ▸ each field.1)
    have heldBack : ∀ other ∈ others, ∃ value,
        Fields.get? other.1 fields = some value ∧ Alike value other.2 :=
      fun other member => Option.Rel.exists_left (Fields.get?_of_mem right member ▸ each other.1)
    refine ⟨same_object_iff.mpr ⟨?_, ?_⟩, everywhere_object_iff.mpr ⟨left, ?_⟩,
      everywhere_object_iff.mpr ⟨right, ?_⟩⟩
    · simpa [Fields.names] using (names_perm_of_rel left right each).length_eq
    · intro field member
      obtain ⟨other, found, alike⟩ := held field member
      exact ⟨other, found, alike.same⟩
    · intro field member
      obtain ⟨other, -, alike⟩ := held field member
      exact alike.distinctLeft
    · intro other member
      obtain ⟨value, -, alike⟩ := heldBack other member
      exact alike.distinctRight

namespace Alike

variable {left right : Node}

theorem kind_eq (alike : Alike left right) : left.kind = right.kind := by
  have equal := alike.same
  cases left <;> cases right <;> first | rfl | simp [Node.same] at equal

theorem exists_items {items : List Node} (alike : Alike (array items) right) :
    ∃ others, right = array others := by
  have kinds := alike.kind_eq
  cases right <;> cases kinds
  exact ⟨_, rfl⟩

theorem exists_fields {fields : List (String × Node)} (alike : Alike (object fields) right) :
    ∃ others, right = object others := by
  have kinds := alike.kind_eq
  cases right <;> cases kinds
  exact ⟨_, rfl⟩

theorem isAbsent_eq (alike : Alike left right) : left.isAbsent = right.isAbsent := by
  have kinds := alike.kind_eq
  cases left <;> cases right <;> first | rfl | cases kinds

theorem refl (distinct : Everywhere DistinctNames left) : Alike left left := by
  induction left with
  | absent | null | bool | number | string =>
    exact ⟨by simp [Node.same, Number.same_refl], distinct, distinct⟩
  | array items each =>
    obtain ⟨-, inside⟩ := everywhere_array_iff.mp distinct
    rw [alike_array_iff]
    intro position
    cases found : items[position]? with
    | none => exact .none
    | some item =>
      have member := List.mem_of_getElem? found
      exact .some (each item member (inside item member))
  | object fields each =>
    obtain ⟨names, inside⟩ := everywhere_object_iff.mp distinct
    rw [alike_object_iff]
    refine ⟨⟨names, names⟩, ?_⟩
    intro name
    cases found : Fields.get? name fields with
    | none => exact .none
    | some value =>
      have member := Fields.mem_of_get?_eq_some found
      exact .some (each _ member (inside _ member))

theorem absent : Alike .absent .absent := refl (everywhere_absent trivial)

theorem trans {middle : Node} (one : Alike left middle) (two : Alike middle right) :
    Alike left right := by
  induction left generalizing middle right with
  | absent | null | bool | number | string =>
    refine ⟨?_, one.distinctLeft, two.distinctRight⟩
    have first := one.same
    have second := two.same
    cases middle <;> simp only [Node.same, Bool.false_eq_true] at first
    all_goals cases right <;> simp only [Node.same, Bool.false_eq_true] at second ⊢
    all_goals first | simp_all | exact Number.same_trans first second
  | array items each =>
    obtain ⟨between, rfl⟩ := one.exists_items
    obtain ⟨others, rfl⟩ := two.exists_items
    rw [alike_array_iff] at one two ⊢
    intro position
    refine Option.Rel.trans_of_mem ?_ (one position) (two position)
    intro item found _ _ here later
    exact each item (List.mem_of_getElem? found) here later
  | object fields each =>
    obtain ⟨between, rfl⟩ := one.exists_fields
    obtain ⟨others, rfl⟩ := two.exists_fields
    rw [alike_object_iff] at one two ⊢
    refine ⟨⟨one.1.1, two.1.2⟩, ?_⟩
    intro name
    refine Option.Rel.trans_of_mem ?_ (one.2 name) (two.2 name)
    intro value found _ _ here later
    exact each _ (Fields.mem_of_get?_eq_some found) here later

theorem symm (alike : Alike left right) : Alike right left := by
  induction left generalizing right with
  | absent | null | bool | number | string =>
    refine ⟨?_, alike.distinctRight, alike.distinctLeft⟩
    have equal := alike.same
    cases right <;> simp only [Node.same, Bool.false_eq_true] at equal ⊢
    all_goals first | simp_all | exact Number.same_symm equal
  | array items each =>
    obtain ⟨others, rfl⟩ := alike.exists_items
    rw [alike_array_iff] at alike ⊢
    intro position
    refine Option.Rel.swap_of_mem ?_ (alike position)
    intro item found _ here
    exact each item (List.mem_of_getElem? found) here
  | object fields each =>
    obtain ⟨others, rfl⟩ := alike.exists_fields
    rw [alike_object_iff] at alike ⊢
    refine ⟨alike.1.symm, ?_⟩
    intro name
    refine Option.Rel.swap_of_mem ?_ (alike.2 name)
    intro value found _ here
    exact each _ (Fields.mem_of_get?_eq_some found) here

theorem slot (alike : Alike left right) (token : Token) :
    Alike (left.slot token) (right.slot token) := by
  have kinds := alike.kind_eq
  cases left with
  | absent | null | bool | number | string =>
    cases right <;> cases kinds
    cases token <;> exact absent
  | array items =>
    obtain ⟨others, rfl⟩ := alike.exists_items
    cases token with
    | key name => exact absent
    | index position => exact Option.Rel.getD (alike_array_iff.mp alike position) absent
  | object fields =>
    obtain ⟨others, rfl⟩ := alike.exists_fields
    cases token with
    | key name => exact Option.Rel.getD ((alike_object_iff.mp alike).2 name) absent
    | index position => exact absent

theorem length_eq {items others : List Node} (alike : Alike (array items) (array others)) :
    items.length = others.length :=
  (List.forall₂_iff_rel_getElem?.mpr (alike_array_iff.mp alike)).length_eq

theorem obstruction?_eq (alike : Alike left right) (token : Token) :
    left.obstruction? token = right.obstruction? token := by
  have kinds := alike.kind_eq
  cases left with
  | absent | null | bool | number | string | object =>
    cases right <;> cases kinds
    cases token <;> rfl
  | array items =>
    obtain ⟨others, rfl⟩ := alike.exists_items
    cases token with
    | key name => rfl
    | index position =>
      show (if reaches items.length position then none else _) = _
      rw [alike.length_eq]
      rfl

theorem opened (alike : Alike left right) (token : Token) :
    Alike (left.opened token) (right.opened token) := by
  by_cases hole : left = .absent
  · subst hole
    have hole : right = .absent := isAbsent_iff.mp alike.isAbsent_eq.symm
    subst hole
    apply refl
    cases token <;> simp [containerFor, everywhere_array_iff, everywhere_object_iff, DistinctNames]
  · have present : right ≠ .absent := by
      rw [Ne, ← isAbsent_iff, ← alike.isAbsent_eq, isAbsent_iff]
      exact hole
    rw [opened_of_ne_absent hole, opened_of_ne_absent present]
    exact alike

theorem withSlot (alike : Alike left right) (token : Token) {child other : Node}
    (inner : Alike child other) : Alike (left.withSlot token child) (right.withSlot token other) := by
  have kinds := alike.kind_eq
  cases left with
  | absent | null | bool | number | string =>
    cases right <;> cases kinds
    cases token <;> exact alike
  | array items =>
    obtain ⟨others, rfl⟩ := alike.exists_items
    cases token with
    | key name => exact alike
    | index position =>
      apply alike_array_iff.mpr
      intro place
      rw [List.getElem?_set, List.getElem?_set, length_padTo, length_padTo, getElem?_padTo,
        getElem?_padTo, alike.length_eq]
      have held := alike_array_iff.mp alike place
      split_ifs
      · exact .some inner
      · exact .none
      · exact held
      · exact .some absent
      · exact .none
  | object fields =>
    obtain ⟨others, rfl⟩ := alike.exists_fields
    cases token with
    | index position => exact alike
    | key name =>
      obtain ⟨⟨names, others⟩, each⟩ := alike_object_iff.mp alike
      refine alike_object_iff.mpr
        ⟨⟨Fields.nodup_names_put names name child, Fields.nodup_names_put others name other⟩, ?_⟩
      intro place
      by_cases same : place = name
      · subst same
        rw [Fields.get?_put_self, Fields.get?_put_self]
        exact .some inner
      · rw [Fields.get?_put_of_ne same, Fields.get?_put_of_ne same]
        exact each place

theorem present? (alike : Alike left right) : Option.Rel Alike left.present? right.present? := by
  unfold Node.present?
  rw [alike.isAbsent_eq]
  split
  · exact .none
  · exact .some alike

theorem get? (alike : Alike left right) (path : Path) :
    Option.Rel Alike (left.get? path) (right.get? path) := by
  induction path generalizing left right with
  | nil => exact alike.present?
  | cons token rest ih =>
    rw [get?_cons_eq, get?_cons_eq]
    exact ih (alike.slot token)

/-- What stops a write does not depend on the order of fields, and neither does what it leaves. -/
theorem writeBelow (alike : Alike left right) {value other : Node} (inner : Alike value other)
    (path : Path) :
    (Node.writeBelow value path left).obstruction = (Node.writeBelow other path right).obstruction ∧
      Alike (Node.writeBelow value path left).document (Node.writeBelow other path right).document := by
  induction path generalizing left right with
  | nil => exact ⟨rfl, inner⟩
  | cons token rest ih =>
    have same := alike.obstruction?_eq token
    cases blocked : left.obstruction? token with
    | some obstruction =>
      rw [writeBelow_of_obstructed blocked, writeBelow_of_obstructed (same ▸ blocked)]
      exact ⟨rfl, alike.opened token⟩
    | none =>
      rw [writeBelow_of_clear blocked, writeBelow_of_clear (same ▸ blocked)]
      obtain ⟨stopped, below⟩ := ih (alike.slot token)
      exact ⟨congrArg (Option.map Obstruction.deeper) stopped, (alike.opened token).withSlot token below⟩

theorem fill? (alike : Alike left right) {value other : Node} (inner : Alike value other)
    (path : Path) : Option.Rel Alike (left.fill? path value) (right.fill? path other) := by
  have written := alike.writeBelow inner path
  unfold Node.fill?
  generalize Node.writeBelow value path left = one at written
  generalize Node.writeBelow other path right = two at written
  obtain ⟨one, stop⟩ := one
  obtain ⟨two, halt⟩ := two
  obtain ⟨rfl, documents⟩ : stop = halt ∧ Alike one two := written
  cases stop with
  | none => exact .some documents
  | some obstruction => exact .none

theorem compact (alike : Alike left right) : Alike left.compact right.compact := by
  induction left generalizing right with
  | absent | null | bool | number | string =>
    have kinds := alike.kind_eq
    cases right <;> cases kinds
    simpa [Node.compact] using alike
  | array items each =>
    obtain ⟨others, rfl⟩ := alike.exists_items
    rw [Node.compact, Node.compact, alike_array_iff, ← List.forall₂_iff_rel_getElem?,
      List.forall₂_map_left_iff, List.forall₂_map_right_iff]
    have both : List.Forall₂ (fun item other => Alike item other ∧ Alike item.compact other.compact)
        items others := by
      rw [List.forall₂_iff_rel_getElem?]
      intro position
      refine Option.Rel.imp_of_mem ?_ (alike_array_iff.mp alike position)
      intro item found other _ here
      exact ⟨here, each item (List.mem_of_getElem? found) here⟩
    refine (List.rel_filter ?_ both).imp fun item other => And.right
    intro item other here
    simp [here.1.isAbsent_eq]
  | object fields each =>
    obtain ⟨others, rfl⟩ := alike.exists_fields
    obtain ⟨names, values⟩ := alike_object_iff.mp alike
    rw [Node.compact, Node.compact, alike_object_iff, Fields.names_map, Fields.names_map]
    refine ⟨names, ?_⟩
    intro name
    rw [Fields.get?_map, Fields.get?_map]
    refine Option.Rel.map (Option.Rel.imp_of_mem ?_ (values name)) (fun _ _ => id)
    intro value found other _ here
    exact each _ (Fields.mem_of_get?_eq_some found) here

end Alike

end Node
end DocPath
