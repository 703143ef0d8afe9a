import DocPath.Proofs.Flat.Build

/-! The flat map as an index of the document. Flattening lists every leaf once, in document order and
under a name of its own, so no entry takes the place of another one; and looking a path up in the map
finds what reading the document at the path finds, if that is a leaf. -/

namespace DocPath.Node

theorem getAt_eq_ok_iff {document : Node} {source : String} {path : Path}
    (read : Path.parse source = .ok path) {found : Option Node} :
    document.getAt source = .ok found ↔ document.get? path = found := by
  rw [getAt_of_parse read]
  exact iff_of_eq (Except.ok.injEq _ _)

/-- In a document whose keys can be written, flattening makes one entry for each scalar and null, under
the written path of its place, and no two leaves share a name; the entries stand in document order.
A text that is read as a path finds a leaf in the document exactly if the flat map holds its value
under the path as it is written. -/
theorem flatten_lists_leaves {document : Node} (addressable : Everywhere Addressable document)
    (writable : Everywhere WritableNames document) :
    (document.flatten.entries = document.leaves.map (fun leaf => (Path.text leaf.1, leaf.2)) ∧
      (∀ path value, (path, value) ∈ document.leaves ↔
        ∃ leaf, document.get? path = some leaf ∧ leaf.IsLeaf ∧ leaf.toJson = value) ∧
      (document.leaves.map fun leaf => Path.text leaf.1).Nodup ∧
      document.leaves.Pairwise fun first second => document.Precedes first.1 second.1) ∧
    ∀ source path, Path.parse source = .ok path → ∀ leaf : Node, leaf.IsLeaf →
      (document.getAt source = .ok (some leaf) ↔
        document.flatten.get? (Path.text path) = some leaf.toJson) := by
  have listed := entries_flatten addressable writable
  refine ⟨⟨listed, ?_, ?_, pairwise_precedes_leaves addressable⟩, ?_⟩
  · intro path value
    rw [mem_leaves_iff addressable, Option.bind_eq_some_iff]
    simp only [leaf?_eq_some_iff]
  · have names : Fields.names document.flatten.entries =
        document.leaves.map fun leaf => Path.text leaf.1 := by
      rw [listed, Fields.names, List.map_map]
      rfl
    exact names ▸ document.flatten.distinct
  · intro source path read leaf value
    have held : leaf.leaf? = some leaf.toJson := leaf?_eq_some_iff.mpr ⟨value, rfl⟩
    rw [getAt_eq_ok_iff read, get?_flatten addressable writable (Path.writable_of_parse read),
      mem_leaves_iff addressable]
    constructor
    · intro found
      rw [found]
      exact held
    · intro found
      obtain ⟨node, here, same⟩ := Option.bind_eq_some_iff.mp found
      rw [here, ← ofJson_of_leaf? same, ofJson_of_leaf? held]

theorem flatten_lists_leaves_mixed :
    let document := object [("b", array [bool true, absent, array [], array [null]]),
      ("a", object [("z", string "x"), ("c", object [])])]
    let path := [Token.key "b", .index 3, .index 0]
    (document.flatten.entries =
        [("b[0]", .bool true), ("b[3][0]", .null), ("a.z", .string "x")] ∧
      document.Precedes path [.key "a", .key "z"]) ∧
    document.getAt "b[003][0]" = .ok (some null) ∧ document.flatten.get? "b[3][0]" = some .null := by
  intro document path
  have addressable : Everywhere Addressable document := by
    simp [document, everywhere_object_iff, everywhere_array_iff, everywhere_single_iff, isContainer,
      isArray, isObject, Addressable]
  have writable : Everywhere WritableNames document := by
    simp [document, everywhere_object_iff, everywhere_array_iff, everywhere_single_iff, isContainer,
      isArray, isObject, WritableNames, Token.Writable, Path.isDelimiter]
  obtain ⟨⟨listed, -, -, ordered⟩, finds⟩ := flatten_lists_leaves addressable writable
  have leaves : document.leaves = [([.key "b", .index 0], .bool true), (path, .null),
      ([.key "a", .key "z"], .string "x")] := by
    simp only [document, Node.leaves, List.map_cons, List.map_nil]
    rfl
  have read : Path.parse "b[003][0]" = .ok path := by decide +kernel
  have value : toJson null = .null := by rw [toJson]
  have found : document.getAt "b[003][0]" = .ok (some null) := by
    rw [getAt_eq_ok_iff read]
    rfl
  have held := (finds _ path read null (Or.inr rfl)).mp found
  rw [value] at held
  have first : Path.text [.key "b", .index 0] = "b[0]" := by decide +kernel
  have second : Path.text path = "b[3][0]" := by decide +kernel
  have third : Path.text [.key "a", .key "z"] = "a.z" := by decide +kernel
  rw [leaves] at listed ordered
  refine ⟨⟨?_, ?_⟩, found, second ▸ held⟩
  · rw [listed, List.map_cons, List.map_cons, List.map_cons, List.map_nil, first, second, third]
  · exact (List.pairwise_cons.mp (List.pairwise_cons.mp ordered).2).1 _ List.mem_cons_self

end DocPath.Node
