import DocPath.Path.Segment
import DocPath.Proofs.Document.Congruence
import DocPath.Proofs.Document.Projection

/-! Typed values do not see the order of fields. A record looks its fields up by name, so equal JSON values
are read as the same record; and the entries of a flat map whose paths lie apart describe one value,
however they are ordered. -/

namespace DocPath

namespace Node

theorem Alike.withoutHoles {left right : Node} (alike : Alike left right) :
    Alike left.withoutHoles right.withoutHoles := by
  induction left generalizing right with
  | absent =>
    have hole : right = .absent := isAbsent_iff.mp alike.isAbsent_eq.symm
    subst hole
    rw [Node.withoutHoles]
    exact refl ((everywhere_single_iff rfl).mpr trivial)
  | null | bool | number | string =>
    have kinds := alike.kind_eq
    cases right <;> cases kinds
    simpa [Node.withoutHoles] using alike
  | array items each =>
    obtain ⟨others, same⟩ := alike.exists_items
    subst same
    rw [Node.withoutHoles, Node.withoutHoles, alike_array_iff]
    intro position
    rw [List.getElem?_map, List.getElem?_map]
    refine Option.Rel.map (Option.Rel.imp_of_mem ?_ (alike_array_iff.mp alike position)) (fun _ _ => id)
    intro item found other _ here
    exact each item (List.mem_of_getElem? found) here
  | object fields each =>
    obtain ⟨others, same⟩ := alike.exists_fields
    subst same
    obtain ⟨⟨left, right⟩, values⟩ := alike_object_iff.mp alike
    rw [Node.withoutHoles, Node.withoutHoles, alike_object_iff, Fields.names_map, Fields.names_map]
    refine ⟨⟨Fields.nodup_names_filter left _, Fields.nodup_names_filter right _⟩, ?_⟩
    intro name
    rw [Fields.get?_map, Fields.get?_map, Fields.get?_filter left (fun value => !value.isAbsent),
      Fields.get?_filter right (fun value => !value.isAbsent)]
    have kept := Option.Rel.filter (fun value => !value.isAbsent) (fun value => !value.isAbsent) (values name)
      fun _ _ here => congrArg (!·) here.isAbsent_eq
    refine Option.Rel.map (Option.Rel.imp_of_mem ?_ kept) (fun _ _ => id)
    intro value found other _ here
    exact each _ (Fields.mem_of_get?_eq_some (Option.filter_eq_some_iff.mp found).1) here

theorem sameValue_toJson {left right : Node} (alike : Alike left right) :
    Alike.SameValue left.toJson right.toJson := by
  unfold Alike.SameValue
  rw [ofJson_toJson, ofJson_toJson]
  exact alike.withoutHoles

namespace Alike.SameValue

variable {value other : Json}

theorem kind_ofJson (json : Json) : (ofJson json).kind = json.kind := by
  cases json <;> simp [ofJson, Node.kind, Json.kind]

theorem kind_eq (same : SameValue value other) : value.kind = other.kind := by
  rw [← kind_ofJson, ← kind_ofJson]
  exact Alike.kind_eq same

theorem items {items others : List Json} (same : SameValue (.array items) (.array others)) :
    List.Forall₂ SameValue items others := by
  unfold SameValue at same
  rw [ofJson, ofJson, alike_array_iff, ← List.forall₂_iff_rel_getElem?, List.forall₂_map_left_iff,
    List.forall₂_map_right_iff] at same
  exact same

theorem fields {fields others : List (String × Json)} (same : SameValue (.object fields) (.object others))
    (name : String) : Option.Rel SameValue (Fields.get? name fields) (Fields.get? name others) := by
  unfold SameValue at same
  rw [ofJson, ofJson, alike_object_iff] at same
  have here := same.2 name
  rw [Fields.get?_map, Fields.get?_map] at here
  have each := Option.Rel.of_map here
  exact each

theorem string_eq {text more : String} (same : SameValue (.string text) (.string more)) : text = more := by
  simpa [SameValue, ofJson, Node.same] using same.same

theorem int_eq {amount sum : Int} {inRange : Number.InRange amount} {sumInRange : Number.InRange sum}
    (same : SameValue (.number (.int amount inRange)) (.number (.int sum sumInRange))) : amount = sum := by
  simpa [SameValue, ofJson, Node.same, Number.same] using same.same

end Alike.SameValue

end Node

namespace Typed
open Node.Alike (SameValue)

variable {α : Type}

/-- Equal JSON values are read alike. -/
def Unordered (read : Json → Option α) : Prop :=
  ∀ value other, SameValue value other → read value = read other

theorem bind_eq {read : Json → Option α} (unordered : Unordered read) {field other : Option Json}
    (same : Option.Rel SameValue field other) : field.bind read = other.bind read := by
  cases same with
  | none => rfl
  | some here => exact unordered _ _ here

theorem unordered_string : Unordered (Decode.decode? : Json → Option String) := by
  intro value other same
  have kinds := same.kind_eq
  cases value with
  | null | bool | number | array | object =>
    cases other <;> cases kinds
    rfl
  | string text =>
    cases other <;> cases kinds
    exact congrArg some same.string_eq

section
variable [Decode α] (inner : Unordered (Decode.decode? : Json → Option α))
include inner

theorem unordered_option : Unordered (Decode.decode? : Json → Option (Option α)) := by
  intro value other same
  have kinds := same.kind_eq
  cases value with
  | null =>
    cases other <;> cases kinds
    rfl
  | bool | number | string | array | object =>
    cases other <;> cases kinds
    exact congrArg (Option.map some) (inner _ _ same)

theorem mapM_eq {items others : List Json} (same : List.Forall₂ SameValue items others) :
    items.mapM (Decode.decode? : Json → Option α) = others.mapM Decode.decode? := by
  induction same with
  | nil => rfl
  | cons here later ih => rw [List.mapM_cons, List.mapM_cons, inner _ _ here, ih]

theorem unordered_list : Unordered (Decode.decode? : Json → Option (List α)) := by
  intro value other same
  have kinds := same.kind_eq
  cases value with
  | null | bool | number | string | object =>
    cases other <;> cases kinds
    rfl
  | array items =>
    cases other <;> cases kinds
    exact mapM_eq inner same.items

theorem required?_eq {field other : Option Json} (same : Option.Rel SameValue field other) :
    (required? field : Option α) = required? other := bind_eq inner same

theorem optional?_eq {field other : Option Json} (same : Option.Rel SameValue field other) :
    (optional? field : Option (Option α)) = optional? other := by
  cases same with
  | none => rfl
  | some here => exact unordered_option inner _ _ here

end

theorem recordFields?_rel (names : List String) {value other : Json} (same : SameValue value other) :
    Option.Rel (List.Forall₂ (Option.Rel SameValue)) (recordFields? names value)
      (recordFields? names other) := by
  have kinds := same.kind_eq
  cases value with
  | null | bool | number | string =>
    cases other <;> cases kinds
    exact .none
  | object fields =>
    cases other <;> cases kinds
    refine .some ?_
    rw [List.forall₂_map_left_iff, List.forall₂_map_right_iff, List.forall₂_same]
    exact fun name _ => same.fields name
  | array items =>
    cases other with
    | null | bool | number | string | object => cases kinds
    | array others =>
      have each := same.items
      rw [recordFields?, recordFields?, each.length_eq]
      split
      · refine .some ?_
        rw [List.forall₂_map_left_iff, List.forall₂_map_right_iff]
        exact each.imp fun _ _ => .some
      · exact .none

theorem recordFields?_toJson {fields : List (String × Node)} (present : ∀ field ∈ fields, field.2 ≠ .absent)
    (names : List String) :
    recordFields? names (Node.object fields).toJson =
      some (names.map fun name => (Fields.get? name fields).map Node.toJson) := by
  rw [Node.toJson, Node.filter_present present, recordFields?]
  simp only [Fields.get?_map]

section
variable [Decode α] (unordered : Unordered (Decode.decode? : Json → Option α))
include unordered

theorem fromNode_eq {left right : Node} (alike : left.Alike right) :
    (fromNode left : Except Error α) = fromNode right := by
  unfold fromNode
  rw [unordered _ _ (Node.sameValue_toJson alike)]

/-- The entries of a document that can be copied are read as the value of the document, in any order. -/
theorem fromFlat_of_perm {document : Node} (distinct : Node.Everywhere Node.DistinctNames document)
    (whole : Node.Everywhere (Node.Copyable false) document) (present : document ≠ .absent)
    {flat : FlatMap} (perm : document.flatten.entries.Perm flat.entries) (compact : Bool) :
    (fromFlat flat compact : Except Error α) =
      fromNode (if compact then document.compact else document) := by
  have addressable := Node.everywhere_addressable whole distinct
  have writable : Node.Everywhere Node.WritableNames document :=
    whole.mono fun _ => Node.Copyable.writableNames
  have values : ∀ entry ∈ document.flatten.entries,
      Node.Everywhere Node.DistinctNames (Node.ofJson entry.2) := fun entry member =>
    (Node.built_of_not_container (Node.single_of_mem_flatten entry member)).mono fun _ => And.right
  have built := FlatMap.build_of_loose (Node.copy_of_copyable distinct whole present) compact
  have related := FlatMap.build_perm (Node.locate_flatten addressable writable) values
    (Node.pairwise_apart_leaves addressable) perm compact
  obtain ⟨finish, alike⟩ := Node.outcome_of_rel related
  obtain ⟨other, otherBuilt⟩ := finish.mp ⟨_, built⟩
  have read : (fromFlat flat compact : Except Error α) = fromNode other := by
    rw [fromFlat, otherBuilt]
    rfl
  rw [read]
  exact (fromNode_eq unordered (alike _ other built otherBuilt)).symm

end

end Typed
end DocPath
