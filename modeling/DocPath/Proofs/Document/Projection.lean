import DocPath.Proofs.Document.Everywhere
import DocPath.Typed

/-! What JSON shows of a document. Writing it as text, encoding it, taking its JSON value and reading that
back each treat holes on their own; they all come to the document without its holes, and lose nothing
if there are none. -/

namespace DocPath.Node

/-- The document as JSON shows it: a hole is null at the root and between items, and a field that holds
nothing is not there. -/
def withoutHoles : Node → Node
  | .absent => .null
  | .array items => .array (items.map fun item => item.withoutHoles)
  | .object fields =>
      .object ((fields.filter fun field => !field.2.isAbsent).map fun field =>
        (field.1, field.2.withoutHoles))
  | other => other
termination_by node => node
decreasing_by
  · have := List.sizeOf_lt_of_mem ‹_›
    simp only [Node.array.sizeOf_spec]
    omega
  · have := Fields.sizeOf_snd_lt ‹_›
    simp only [Node.object.sizeOf_spec]
    omega

theorem ofJson_of_occurs {part document : Node} (occurs : Occurs part document) :
    ∀ value, ofJson value = document → ∃ inner, ofJson inner = part := by
  induction occurs with
  | here => exact fun value same => ⟨value, same⟩
  | item member inside ih =>
    intro value same
    cases value with
    | null | bool | number | string | object => simp [ofJson] at same
    | array values =>
      simp only [ofJson, array.injEq] at same
      subst same
      obtain ⟨inner, -, equal⟩ := List.mem_map.mp member
      exact ih inner equal
  | field member inside ih =>
    intro value same
    cases value with
    | null | bool | number | string | array => simp [ofJson] at same
    | object values =>
      simp only [ofJson, object.injEq] at same
      subst same
      obtain ⟨inner, -, equal⟩ := List.mem_map.mp member
      exact ih inner.2 (congrArg Prod.snd equal)

theorem toJson_ofJson (json : Json) : (ofJson json).toJson = json := by
  induction json with
  | null | bool | number | string => simp [ofJson, toJson]
  | array items each =>
    rw [ofJson, toJson, List.map_map]
    have same : items.map ((fun node => node.toJson) ∘ fun item => ofJson item) = items.map id :=
      List.map_congr_left each
    rw [same, List.map_id]
  | object fields each =>
    have present : ∀ field ∈ fields.map fun field => (field.1, ofJson field.2), field.2 ≠ .absent := by
      intro field member
      obtain ⟨origin, -, same⟩ := List.mem_map.mp member
      rw [← same]
      exact ofJson_ne_absent origin.2
    have same : fields.map ((fun field => (field.1, field.2.toJson)) ∘ fun field =>
        (field.1, ofJson field.2)) = fields.map id :=
      List.map_congr_left fun field member => Prod.ext rfl (each field member)
    rw [ofJson, toJson, filter_present present, List.map_map, same, List.map_id]

theorem ofJson_toJson (document : Node) : ofJson document.toJson = document.withoutHoles := by
  induction document with
  | absent | null | bool | number | string => simp [toJson, ofJson, withoutHoles]
  | array items each =>
    rw [toJson, ofJson, withoutHoles, List.map_map]
    exact congrArg array (List.map_congr_left each)
  | object fields each =>
    rw [toJson, ofJson, withoutHoles, List.map_map]
    refine congrArg object (List.map_congr_left fun field kept => ?_)
    rw [Function.comp_apply, each field (List.mem_filter.mp kept).1]

theorem collect_toJson {document : Node} (distinct : Everywhere DistinctNames document) :
    collect document.toJson = document.withoutHoles := by
  unfold collect
  rw [fold_toJson]
  induction document with
  | absent | null | bool | number | string => simp [fold, withoutHoles, collecting]
  | array items each =>
    rw [fold, withoutHoles]
    have inside := (everywhere_array_iff.mp distinct).2
    exact congrArg array (List.map_congr_left fun item member => each item member (inside item member))
  | object fields each =>
    obtain ⟨here, inside⟩ := everywhere_object_iff.mp distinct
    have kept : ∀ field ∈ fields.filter fun field => !field.2.isAbsent,
        (field.1, field.2.fold collecting) = (field.1, field.2.withoutHoles) := by
      intro field kept
      have member := (List.mem_filter.mp kept).1
      rw [each field member (inside field member)]
    have names : (Fields.names ((fields.filter fun field => !field.2.isAbsent).map fun field =>
        (field.1, field.2.withoutHoles))).Nodup := by
      rw [Fields.names_map]
      exact Fields.nodup_names_filter here _
    rw [fold, withoutHoles, List.map_congr_left kept]
    exact congrArg object (Fields.ofList_of_nodup names)

theorem withoutHoles_of_everywhere {document : Node} (whole : Everywhere (· ≠ .absent) document) :
    document.withoutHoles = document := by
  induction document with
  | absent => exact absurd rfl (whole .absent .here)
  | null | bool | number | string => simp [withoutHoles]
  | array items each =>
    have inside := (everywhere_array_iff.mp whole).2
    have same : (items.map fun item => item.withoutHoles) = items.map id :=
      List.map_congr_left fun item member => each item member (inside item member)
    rw [withoutHoles, same, List.map_id]
  | object fields each =>
    have inside := (everywhere_object_iff.mp whole).2
    have present : ∀ field ∈ fields, field.2 ≠ .absent :=
      fun field member => inside field member _ .here
    have same : (fields.map fun field => (field.1, field.2.withoutHoles)) = fields.map id :=
      List.map_congr_left fun field member => Prod.ext rfl (each field member (inside field member))
    rw [withoutHoles, filter_present present, same, List.map_id]

theorem withoutHoles_eq_self_iff {document : Node} :
    document.withoutHoles = document ↔ ¬ Occurs .absent document := by
  constructor
  · intro same hole
    rw [← same, ← ofJson_toJson] at hole
    obtain ⟨inner, absent⟩ := ofJson_of_occurs hole _ rfl
    exact ofJson_ne_absent inner absent
  · exact fun whole => withoutHoles_of_everywhere fun part occurs absent => whole (absent ▸ occurs)

/-- Encoding a document and taking its JSON value give the same value, the text of the document is the
text of that value, and whichever way a document is made of it, it is the document without its holes;
that is the document itself exactly if nothing in it is absent. A JSON value comes back from its
document. -/
theorem json_forms_agree {document : Node} (distinct : Everywhere DistinctNames document) :
    Encode.encode document = .ok document.toJson ∧
    document.text = document.toJson.text ∧
    Typed.toNode document = .ok document.withoutHoles ∧
    Typed.fromNode document = .ok document.withoutHoles ∧
    ofJson document.toJson = document.withoutHoles ∧
    (document.withoutHoles = document ↔ ¬ Occurs .absent document) ∧
    ∀ json, (ofJson json).toJson = json := by
  have encoded : Encode.encode document = .ok document.toJson := by
    show Except.ok (document.fold Json.Algebra.copy) = _
    rw [← fold_toJson, Json.fold_copy]
  refine ⟨encoded, ?_, ?_, ?_, ofJson_toJson document, withoutHoles_eq_self_iff, toJson_ofJson⟩
  · rw [text, Json.text, fold_toJson]
  · unfold Typed.toNode
    rw [encoded]
    exact congrArg Except.ok (ofJson_toJson document)
  · exact congrArg Except.ok (collect_toJson distinct)

theorem json_forms_agree_mixed :
    let document := object [("b", array [absent, array [absent]]), ("gone", absent), ("a", object [])]
    let shown := object [("b", array [null, array [null]]), ("a", object [])]
    Everywhere DistinctNames document ∧ Typed.toNode document = .ok shown ∧
      Typed.fromNode document = .ok shown ∧ shown ≠ document := by
  intro document shown
  have distinct : Everywhere DistinctNames document := by
    simp [document, everywhere_object_iff, everywhere_array_iff, everywhere_single_iff, isContainer,
      isArray, isObject, DistinctNames]
  have same : document.withoutHoles = shown := by
    simp [document, shown, withoutHoles, isAbsent]
  obtain ⟨-, -, made, read, -, unchanged, -⟩ := json_forms_agree distinct
  rw [same] at made read unchanged
  refine ⟨distinct, made, read, fun equal => unchanged.mp equal ?_⟩
  exact .field (List.mem_cons_of_mem _ List.mem_cons_self) .here

end DocPath.Node
