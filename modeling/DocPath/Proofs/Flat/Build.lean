import DocPath.Flat.Build
import DocPath.Proofs.Flat.Leaves
import DocPath.Proofs.Path.RoundTrip
import DocPath.Proofs.Write.Failure
import DocPath.Proofs.Write.Sequence

/-! Flat maps as sequences of writes. Once the names of a flat map are read as paths, building is
writing its entries one after another, and what flattening lists is read back as the leaves. -/

namespace DocPath

/-- The write that an entry of a flat map asks for. -/
def Node.asWrite (entry : Path × Json) : Path × Node := (entry.1, Node.ofJson entry.2)

namespace FlatMap

def locate (entries : List (String × Json)) : Except Error (List (Path × Json)) :=
  entries.mapM fun entry => do return (← Path.parse entry.1, entry.2)

theorem locate_cons (entry : String × Json) (rest : List (String × Json)) :
    locate (entry :: rest) = (Path.parse entry.1).bind fun path =>
      (locate rest).bind fun others => .ok ((path, entry.2) :: others) := by
  unfold locate
  rw [List.mapM_cons]
  cases Path.parse entry.1 with
  | error fault => rfl
  | ok path => rfl

theorem locate_cons_eq_ok_iff {entry : String × Json} {rest : List (String × Json)}
    {located : List (Path × Json)} :
    locate (entry :: rest) = .ok located ↔
      ∃ path, Path.parse entry.1 = .ok path ∧ ∃ others, locate rest = .ok others ∧
        (path, entry.2) :: others = located := by
  simp only [locate_cons, Except.bind_eq_ok_iff, Except.ok.injEq]

theorem writeAll_cons (entry : String × Json) (rest : List (String × Json))
    (document : Option Node) :
    writeAll (entry :: rest) document =
      (Node.setAt document entry.1 (Node.ofJson entry.2)).bind fun next =>
        writeAll rest (some next) := by
  unfold writeAll
  rw [List.foldlM_cons]
  cases Node.setAt document entry.1 (Node.ofJson entry.2) <;> rfl

theorem writeAll_eq_ok_iff {entries : List (String × Json)} {document : Node}
    {result : Option Node} :
    writeAll entries (some document) = .ok result ↔
      ∃ located, locate entries = .ok located ∧ ∃ last,
        document.setAll (located.map Node.asWrite) = .ok last ∧ some last = result := by
  induction entries generalizing document with
  | nil =>
    constructor
    · intro written
      cases written
      exact ⟨[], rfl, document, rfl, rfl⟩
    · intro written
      obtain ⟨located, read, last, set, same⟩ := written
      cases read
      cases set
      exact congrArg Except.ok same
  | cons entry rest ih =>
    rw [writeAll_cons, Node.setAt_eq, Option.getD_some]
    simp only [Except.bind_eq_ok_iff, locate_cons_eq_ok_iff]
    constructor
    · intro written
      obtain ⟨next, ⟨path, read, first⟩, later⟩ := written
      obtain ⟨others, located, last, set, same⟩ := ih.mp later
      refine ⟨_, ⟨path, read, others, located, rfl⟩, last, ?_, same⟩
      rw [List.map_cons, Node.setAll_cons, Except.bind_eq_ok_iff]
      exact ⟨next, first, set⟩
    · intro written
      obtain ⟨_, ⟨path, read, others, located, rfl⟩, last, set, same⟩ := written
      rw [List.map_cons, Node.setAll_cons, Except.bind_eq_ok_iff] at set
      obtain ⟨next, first, later⟩ := set
      exact ⟨next, ⟨path, read, first⟩, ih.mpr ⟨others, located, last, later, same⟩⟩

theorem writeAll_none {entries : List (String × Json)} (nonempty : entries ≠ []) :
    writeAll entries none = writeAll entries (some .absent) := by
  cases entries with
  | nil => exact absurd rfl nonempty
  | cons entry rest =>
    rw [writeAll_cons, writeAll_cons, Node.setAt_eq, Node.setAt_eq]
    rfl

theorem build_eq (flat : FlatMap) (compact : Bool) :
    flat.build compact = (writeAll flat.entries none).bind fun document =>
      .ok (if compact then (document.getD .null).compact else document.getD .null) := by
  unfold build
  cases writeAll flat.entries none <;> rfl

theorem build_of_loose {flat : FlatMap} {document : Node} (built : flat.build false = .ok document)
    (compact : Bool) : flat.build compact = .ok (if compact then document.compact else document) := by
  rw [build_eq, Except.bind_eq_ok_iff] at built
  obtain ⟨before, written, same⟩ := built
  cases same
  rw [build_eq, written]
  rfl

theorem build_eq_ok_iff {flat : FlatMap} (nonempty : flat.entries ≠ []) {compact : Bool}
    {result : Node} :
    flat.build compact = .ok result ↔
      ∃ located, locate flat.entries = .ok located ∧ ∃ last,
        Node.absent.setAll (located.map Node.asWrite) = .ok last ∧
          (if compact then last.compact else last) = result := by
  rw [build_eq, writeAll_none nonempty, Except.bind_eq_ok_iff]
  simp only [writeAll_eq_ok_iff, Except.ok.injEq]
  constructor
  · intro built
    obtain ⟨document, ⟨located, read, last, set, rfl⟩, same⟩ := built
    exact ⟨located, read, last, set, same⟩
  · intro built
    obtain ⟨located, read, last, set, same⟩ := built
    exact ⟨some last, ⟨located, read, last, set, rfl⟩, same⟩

theorem writeAll_of_located {entries : List (String × Json)} {located : List (Path × Json)}
    (read : locate entries = .ok located) (document : Node) :
    writeAll entries (some document) = (document.setAll (located.map Node.asWrite)).map some := by
  induction entries generalizing located document with
  | nil =>
    cases read
    rfl
  | cons entry rest ih =>
    obtain ⟨path, parsed, others, later, rfl⟩ := locate_cons_eq_ok_iff.mp read
    rw [writeAll_cons, Node.setAt_eq, parsed, List.map_cons, Node.setAll_cons]
    simp only [Except.bind, Option.getD_some, Node.asWrite]
    cases document.set path (Node.ofJson entry.2) with
    | error fault => rfl
    | ok next => exact ih later next

theorem build_of_located {flat : FlatMap} {entries : List (Path × Json)}
    (read : locate flat.entries = .ok entries) (nonempty : flat.entries ≠ []) (compact : Bool) :
    flat.build compact = (Node.absent.setAll (entries.map Node.asWrite)).map
      fun last => if compact then last.compact else last := by
  rw [build_eq, writeAll_none nonempty, writeAll_of_located read]
  cases Node.absent.setAll (entries.map Node.asWrite) <;> rfl

theorem build_eq_ok_iff_of_located {flat : FlatMap} {entries : List (Path × Json)}
    (read : locate flat.entries = .ok entries) (nonempty : flat.entries ≠ []) {compact : Bool}
    {result : Node} :
    flat.build compact = .ok result ↔
      ∃ last, Node.absent.setAll (entries.map Node.asWrite) = .ok last ∧
        (if compact then last.compact else last) = result := by
  rw [build_of_located read nonempty]
  cases Node.absent.setAll (entries.map Node.asWrite) <;> simp [Except.map]

theorem build_of_empty {flat : FlatMap} (empty : flat.entries = []) (compact : Bool) :
    flat.build compact = .ok .null := by
  unfold build
  rw [empty]
  cases compact
  · rfl
  · show Except.ok (Node.compact .null) = _
    rw [Node.compact_of_not_container rfl]

theorem build_eq_error_iff {flat : FlatMap} {entries : List (Path × Json)}
    (read : locate flat.entries = .ok entries) {compact : Bool} {error : Error} :
    flat.build compact = .error error ↔
      Node.absent.setAll (entries.map Node.asWrite) = .error error := by
  by_cases empty : flat.entries = []
  · rw [empty] at read
    cases read
    rw [build_of_empty empty]
    constructor <;> exact nofun
  · rw [build_of_located read empty]
    cases Node.absent.setAll (entries.map Node.asWrite) <;> simp [Except.map]

end FlatMap

namespace Node

/-- Every key of an object can be written. -/
def WritableNames : Node → Prop
  | .object fields => ∀ field ∈ fields, (Token.key field.1).Writable
  | _ => True

theorem writable_leaves {node : Node} (writable : Everywhere WritableNames node) :
    ∀ leaf ∈ node.leaves, Path.Writable leaf.1 := by
  have tokens : ∀ part : Node, part.WritableNames → ∀ child ∈ part.children, child.1.Writable := by
    intro part names child inside
    cases part with
    | absent | null | bool | number | string => cases inside
    | array items =>
      obtain ⟨item, -, same⟩ := List.mem_map.mp inside
      subst same
      trivial
    | object fields =>
      obtain ⟨field, member, same⟩ := List.mem_map.mp inside
      subst same
      exact names field member
  exact forall_token_leaves (writable.mono tokens)

theorem entries_flatten {node : Node} (addressable : Everywhere Addressable node)
    (writable : Everywhere WritableNames node) :
    node.flatten.entries = node.leaves.map fun leaf => (Path.text leaf.1, leaf.2) := by
  unfold flatten
  rw [FlatMap.entries_ofList]
  apply Fields.ofList_of_nodup
  rw [Fields.names, List.map_map]
  apply List.pairwise_map.mpr
  apply (pairwise_apart_leaves addressable).imp_of_mem
  intro first second firstMember secondMember apart same
  exact apart.ne (Path.text_injective (writable_leaves writable first firstMember)
    (writable_leaves writable second secondMember) same)

theorem get?_flatten {node : Node} (addressable : Everywhere Addressable node)
    (writable : Everywhere WritableNames node) {path : Path} (readable : Path.Writable path)
    {value : Json} :
    node.flatten.get? (Path.text path) = some value ↔ (path, value) ∈ node.leaves := by
  have listed := entries_flatten addressable writable
  constructor
  · intro held
    have entry := Fields.mem_of_get?_eq_some held
    rw [listed] at entry
    obtain ⟨leaf, member, same⟩ := List.mem_map.mp entry
    obtain ⟨text, rfl⟩ := Prod.mk.inj same
    have place := Path.text_injective (writable_leaves writable leaf member) readable text
    exact place ▸ member
  · intro member
    have entry : (Path.text path, value) ∈ node.flatten.entries := by
      rw [listed]
      exact List.mem_map_of_mem member
    exact Fields.get?_of_mem node.flatten.distinct entry

theorem locate_texts {leaves : List (Path × Json)}
    (writable : ∀ leaf ∈ leaves, Path.Writable leaf.1) :
    FlatMap.locate (leaves.map fun leaf => (Path.text leaf.1, leaf.2)) = .ok leaves := by
  induction leaves with
  | nil => rfl
  | cons leaf rest ih =>
    rw [List.map_cons, FlatMap.locate_cons_eq_ok_iff]
    refine ⟨leaf.1, Path.parse_text (writable leaf List.mem_cons_self), rest, ?_, rfl⟩
    exact ih fun other later => writable other (List.mem_cons_of_mem leaf later)

theorem locate_flatten {node : Node} (addressable : Everywhere Addressable node)
    (writable : Everywhere WritableNames node) :
    FlatMap.locate node.flatten.entries = .ok node.leaves := by
  rw [entries_flatten addressable writable]
  exact locate_texts (writable_leaves writable)

end Node
end DocPath
