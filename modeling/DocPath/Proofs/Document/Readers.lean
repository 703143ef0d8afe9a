import DocPath.Proofs.Write.Frame
import DocPath.Proofs.Write.Overwrite

/-! The ways to read a document. One looks up what is stored and stops where nothing is, one takes a hole for
whatever is missing and goes on, one stops at holes too, and one leads to a node in order to change it. Holes
on the way and at its end are met differently, but all of them come to the same node. -/

namespace DocPath.Node

theorem foldl_slot_absent (path : Path) : path.foldl slot .absent = .absent := by
  induction path with
  | nil => rfl
  | cons token rest ih => rw [List.foldl_cons, slot_absent, ih]

theorem get?_eq_foldl_slot (node : Node) (path : Path) :
    node.get? path = (path.foldl slot node).present? := by
  induction path generalizing node with
  | nil => rfl
  | cons token rest ih => rw [get?_cons_eq, ih, List.foldl_cons]

theorem foldl_slot_eq_foldlM_stored? (node : Node) (path : Path) :
    path.foldl slot node = (path.foldlM stored? node).getD .absent := by
  induction path generalizing node with
  | nil => rfl
  | cons token rest ih =>
    rw [List.foldl_cons, List.foldlM_cons, slot_eq_stored?]
    cases node.stored? token with
    | none => exact foldl_slot_absent rest
    | some child => exact ih child

theorem modify?_of_get? {document found : Node} {path : Path} (held : document.get? path = some found)
    (change : Node → Node) :
    ∃ result, modify? change path document = some result ∧
      document.fill? path (change found) = some result := by
  obtain ⟨result, filled, -⟩ := fill?_again (fill?_of_get? held) (change found)
  rw [modify?_eq, held]
  exact ⟨result, filled, filled⟩

theorem isSome_modify? (change : Node → Node) (path : Path) (document : Node) :
    (modify? change path document).isSome = (document.get? path).isSome := by
  cases held : document.get? path with
  | none =>
    rw [modify?_eq, held]
    rfl
  | some found =>
    obtain ⟨result, modified, -⟩ := modify?_of_get? held change
    rw [modified]
    rfl

/-- All readers come to the same node. What a path finds is what stepping from slot to slot comes to, unless
that is a hole, and what looking up step by step comes to. There is a node to change at a path exactly if
there is one to read, and it is that node: the change is applied to it, what the change makes of it is found
in its place, and nothing apart from it changes. A path in two parts is read one part after the other, a text
as the path that it spells, and on the way to something found stand containers that the next token can step
into. -/
theorem readers_agree (document fallback : Node) (path back : Path) :
    (∀ found, document.get? path = some found ↔ path.foldl slot document = found ∧ found ≠ absent) ∧
    document.get? path = (path.foldlM stored? document).bind present? ∧
    (∀ change, (modify? change path document).isSome = (document.get? path).isSome ∧
      ∀ found, document.get? path = some found →
        ∃ result, modify? change path document = some result ∧
          (∀ rest, result.get? (path ++ rest) = (change found).get? rest) ∧
          (∀ other, Path.Apart path other → result.get? other = document.get? other) ∧
          (change found = found → result = document)) ∧
    document.get? (path ++ back) = (document.get? path).bind (fun inner => inner.get? back) ∧
    (∀ text, Path.parse text = .ok path →
      document.getAt text = .ok (document.get? path) ∧
        document.getAtD text fallback = .ok ((document.get? path).getD fallback)) ∧
    ∀ front token rest found, path = front ++ token :: rest → document.get? path = some found →
      ∃ container, document.get? front = some container ∧ container.fits token = true := by
  refine ⟨?_, ?_, ?_, get?_append document path back, ?_, ?_⟩
  · intro found
    rw [get?_eq_foldl_slot, present?_eq_some_iff]
    constructor
    · intro stepped
      exact ⟨stepped.2, stepped.2 ▸ stepped.1⟩
    · intro stepped
      exact ⟨stepped.1 ▸ stepped.2, stepped.1⟩
  · rw [get?_eq_foldl_slot, foldl_slot_eq_foldlM_stored?, bind_present?_getD]
  · intro change
    refine ⟨isSome_modify? change path document, fun found held => ?_⟩
    obtain ⟨result, modified, filled⟩ := modify?_of_get? held change
    refine ⟨result, modified, get?_fill?_append filled, fun other => get?_fill?_of_apart filled, ?_⟩
    intro same
    rw [same, fill?_of_get? held] at filled
    exact (Option.some.inj filled).symm
  · intro text read
    exact ⟨getAt_of_parse read document, getAtD_of_parse read document fallback⟩
  · intro front token rest found split held
    rw [split] at held
    obtain ⟨container, above, fit, -⟩ := container_of_get? held
    exact ⟨container, above, fit⟩

theorem readers_agree_next_to_hole :
    let inner := object [("b", null)]
    let document := object [("a", array [absent, inner])]
    let path := [Token.key "a", .index 1]
    let through := [Token.key "a", .index 0, .key "b"]
    document.get? path = some inner ∧ path.foldl slot document = inner ∧
      (∃ result, modify? (fun _ => bool true) path document = some result ∧
        result.get? (path ++ []) = some (bool true) ∧ result.get? through = document.get? through) ∧
      Path.parse "a[00].b" = .ok through ∧ document.getAt "a[00].b" = .ok (document.get? through) ∧
      document.getAtD "a[00].b" (string "x") = .ok ((document.get? through).getD (string "x")) ∧
      ∃ container, document.get? [.key "a"] = some container ∧ container.fits (.index 1) = true := by
  intro inner document path through
  have held : document.get? path = some inner := rfl
  have read : Path.parse "a[00].b" = .ok through := rfl
  obtain ⟨slots, -, changes, -, -, fronts⟩ := readers_agree document (string "x") path []
  obtain ⟨-, -, -, -, texts, -⟩ := readers_agree document (string "x") through []
  obtain ⟨found, fallback⟩ := texts "a[00].b" read
  obtain ⟨-, led⟩ := changes fun _ => bool true
  obtain ⟨result, modified, below, apart, -⟩ := led inner held
  exact ⟨held, ((slots inner).mp held).1, ⟨result, modified, below [], apart through (by decide)⟩, read, found,
    fallback, fronts [.key "a"] (.index 1) [] inner rfl held⟩

end DocPath.Node
