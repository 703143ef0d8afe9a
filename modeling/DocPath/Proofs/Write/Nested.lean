import DocPath.Proofs.Write.Sequence

/-! Writes within writes. A write along a path is a write along its front of what a write along the rest
makes of the node that stands there, wherever the path is cut. So is a write that is stopped, in what it
leaves and in what stopped it. -/

namespace DocPath

/-- The obstruction as a longer path meets it, with so many more tokens in front. -/
def Obstruction.behind (tokens : Nat) : Obstruction → Obstruction
  | .kindMismatch depth token found => .kindMismatch (depth + tokens) token found
  | .indexBeyondLimit depth position => .indexBeyondLimit (depth + tokens) position

theorem Obstruction.behind_zero : Obstruction.behind 0 = id := by
  funext obstruction
  cases obstruction <;> rfl

theorem Obstruction.deeper_behind (tokens : Nat) (obstruction : Obstruction) :
    (obstruction.behind tokens).deeper = obstruction.behind (tokens + 1) := by
  cases obstruction <;> rfl

namespace Node

/-- What is left of a node when what a write left of the node at a place is written there. What stops the
outer write comes first. -/
def carry (node : Node) (place : Path) (inner : Written) : Written :=
  let outer := writeBelow inner.document place node
  ⟨outer.document, outer.obstruction.or (inner.obstruction.map (Obstruction.behind place.length))⟩

/-- Below a node a write along a path is a write along its front of what a write along the rest makes. -/
theorem writeBelow_append (value node : Node) (front back : Path) :
    writeBelow value (front ++ back) node =
      node.carry front (writeBelow value back ((node.get? front).getD .absent)) := by
  induction front generalizing node with
  | nil =>
    rw [List.nil_append, getD_get?_nil]
    simp only [carry, writeBelow, List.length_nil, Obstruction.behind_zero, Option.map_id_fun, id_eq,
      Option.none_or]
  | cons token rest ih =>
    rw [List.cons_append, get?_cons_eq]
    cases blocked : node.obstruction? token with
    | some obstruction => simp only [carry, writeBelow_of_obstructed blocked, Option.some_or]
    | none =>
      rw [writeBelow_of_clear blocked, ih (node.slot token)]
      simp only [carry, writeBelow_of_clear blocked, Option.map_or, Option.map_map]
      congr 3
      funext obstruction
      exact obstruction.deeper_behind rest.length

theorem fill?_append_eq_some_iff {node value result : Node} {front back : Path} :
    node.fill? (front ++ back) value = some result ↔
      ∃ inner, ((node.get? front).getD .absent).fill? back value = some inner ∧
        node.fill? front inner = some result := by
  simp only [fill?_eq_some_iff, writeBelow_append, carry]
  rcases writeBelow value back ((node.get? front).getD .absent) with ⟨inner, _ | obstruction⟩
  · simp only [Option.map_none, Option.or_none, Written.mk.injEq, and_true, exists_eq_left']
    exact (Iff.of_eq (Written.mk.injEq ..)).symm
  · simp

theorem ground_get? {document : Node} {front : Path}
    (solid : front = [] ∨ document.get? front ≠ some .null) :
    ((document.get? front).getD .absent).ground =
      (document.ground.get? front).getD .absent := by
  cases front with
  | nil => rw [getD_get?_nil, getD_get?_nil]
  | cons token rest =>
    rw [get?_ground_cons]
    cases found : document.get? (token :: rest) with
    | none => rfl
    | some node =>
      have value : node ≠ .null := by
        rintro rfl
        exact solid.resolve_left (List.cons_ne_nil token rest) found
      exact ground_of_ne_null value

theorem write_append {document : Node} {front : Path}
    (solid : front = [] ∨ document.get? front ≠ some .null) (back : Path) (value : Node) :
    document.write (front ++ back) value =
      document.ground.carry front (((document.get? front).getD .absent).write back value) := by
  unfold write
  rw [writeBelow_append, ground_get? solid]

/-- A write along a path is a write along its front of what a write along the rest makes of the node that
stands there, if any: both go through or neither does, and then they make the same; stopped, they leave the
same. A null behind the front is left out, since it stops the write along the whole path but counts as
nothing to a write of its own. -/
theorem write_is_nested {document : Node} {front : Path}
    (solid : front = [] ∨ document.get? front ≠ some .null) (back : Path) (value : Node) :
    (∀ result, document.set (front ++ back) value = .ok result ↔
      ∃ inner, ((document.get? front).getD .absent).set back value = .ok inner ∧
        document.set front inner = .ok result) ∧
    (document.write (front ++ back) value).document =
      (document.write front
        (((document.get? front).getD .absent).write back value).document).document := by
  refine ⟨fun result => ?_, ?_⟩
  · simp only [set_eq_ok_iff]
    rw [fill?_append_eq_some_iff, ground_get? solid]
  · rw [write_append solid]
    rfl

theorem write_is_nested_behind_padding :
    let document := object [("a", array [bool true])]
    let front := [Token.key "a", .index 2]
    let inner := object [("b", array [absent, null])]
    let result := object [("a", array [bool true, absent, inner])]
    let left := object [("a", array [bool true, absent, object [("b", array [])]])]
    document.get? front = none ∧
      absent.set [.key "b", .index 1] null = .ok inner ∧ document.set front inner = .ok result ∧
      document.set (front ++ [.key "b", .index 1]) null = .ok result ∧
      (document.write (front ++ [.key "b", .index 1048577]) null).document = left ∧
      (absent.write [.key "b", .index 1048577] null).document = object [("b", array [])] := by
  intro document front inner result left
  have missing : document.get? front = none := rfl
  have solid : front = [] ∨ document.get? front ≠ some .null := by simp [missing]
  have within : absent.set [.key "b", .index 1] null = .ok inner := rfl
  have outer : document.set front inner = .ok result := rfl
  obtain ⟨nested, -⟩ := write_is_nested solid [.key "b", .index 1] null
  obtain ⟨-, stopped⟩ := write_is_nested solid [.key "b", .index 1048577] null
  exact ⟨missing, within, outer, (nested result).mpr ⟨inner, within, outer⟩, stopped, rfl⟩

end Node
end DocPath
