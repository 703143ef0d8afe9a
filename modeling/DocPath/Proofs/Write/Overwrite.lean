import DocPath.Proofs.Write.Nested

/-! Writing where something was written. What is found at a place can be written back and changes nothing;
what is written there over something is put in its place; and it covers whatever was written at the place
or below it before, down to the containers that the earlier write made on its way. -/

namespace DocPath.Node

theorem fill?_of_get? {node found : Node} {path : Path} (held : node.get? path = some found) :
    node.fill? path found = some node := by
  induction path generalizing node with
  | nil =>
    obtain ⟨-, same⟩ := present?_eq_some_iff.mp held
    rw [fill?_nil, same]
  | cons token rest ih =>
    rw [get?_cons_eq] at held
    have present := ne_absent_of_get? held
    have opened := opened_of_ne_absent (ne_absent_of_slot present) token
    exact fill?_cons_eq_some_iff.mpr
      ⟨clear_of_slot present, node.slot token, ih held, by rw [opened, withSlot_slot present]⟩

theorem fill?_again {node value middle : Node} {path : Path}
    (filled : node.fill? path value = some middle) (other : Node) :
    ∃ result, node.fill? path other = some result ∧ middle.fill? path other = some result := by
  induction path generalizing node middle with
  | nil => exact ⟨other, rfl, rfl⟩
  | cons token rest ih =>
    obtain ⟨clear, inner, below, rfl⟩ := fill?_cons_eq_some_iff.mp filled
    obtain ⟨result, fresh, again⟩ := ih below
    refine ⟨(node.opened token).withSlot token result, ?_, ?_⟩
    · rw [fill?_cons_of_clear clear, fresh]
      rfl
    · rw [fill?_withSlot clear, again]
      rfl

theorem modify?_cons (change : Node → Node) (token : Token) (rest : Path) (node : Node) :
    modify? change (token :: rest) node =
      (node.child? token).bind fun child => (modify? change rest child).map (node.withSlot token) := by
  rw [modify?, lookup?_eq, child?, Option.bind_map, Option.bind_assoc]
  apply Option.bind_congr
  intro child _
  by_cases hole : child.isAbsent = true
  · simp only [Function.comp_apply, present?, if_pos hole, Option.bind_none]
  · simp only [Function.comp_apply, present?, if_neg hole, Option.bind_some]

/-- Changing the node at a place is a write of what the change makes of it, if there is such a node. -/
theorem modify?_eq (change : Node → Node) (path : Path) (document : Node) :
    modify? change path document =
      (document.get? path).bind fun found => document.fill? path (change found) := by
  induction path generalizing document with
  | nil => cases document <;> rfl
  | cons token rest ih =>
    rw [modify?_cons, get?_cons, Option.bind_assoc]
    apply Option.bind_congr
    intro child stepped
    obtain ⟨present, slot⟩ := child?_eq_some_iff.mp stepped
    subst slot
    have opened := opened_of_ne_absent (ne_absent_of_slot present) token
    rw [ih, Option.map_bind]
    apply Option.bind_congr
    intro found _
    rw [Function.comp_apply, fill?_cons_of_clear (clear_of_slot present), opened]

theorem replace?_eq (document : Node) (path : Path) (value : Node) :
    document.replace? path value = (document.get? path).bind fun _ => document.fill? path value :=
  modify?_eq (fun _ => value) path document

theorem fill?_of_replace? {document value result : Node} {path : Path}
    (replaced : document.replace? path value = some result) :
    document.fill? path value = some result := by
  rw [replace?_eq] at replaced
  obtain ⟨_, -, filled⟩ := Option.bind_eq_some_iff.mp replaced
  exact filled

/-- Writing back what is found at a place goes through and changes nothing. A write over something goes
through, however far along its array that stands, and puts the value in its place. A write at a place behind
a write at the place or below it goes through and leaves what it leaves without the earlier one. -/
theorem overwriting_is_exact (document : Node) (path : Path) (other : Node) :
    (∀ found, document.get? path = some found → document.set path found = .ok document) ∧
    (∀ found, document.get? path = some found →
      ∃ result, document.set path other = .ok result ∧
        document.replace? path other = some result) ∧
    ∀ back value middle, document.set (path ++ back) value = .ok middle →
      ∃ result, middle.set path other = .ok result ∧ document.set path other = .ok result := by
  refine ⟨?_, ?_, ?_⟩
  · intro found held
    exact set_of_fill? (fill?_of_get? held)
  · intro found held
    obtain ⟨result, filled, -⟩ := fill?_again (fill?_of_get? held) other
    refine ⟨result, set_of_fill? filled, ?_⟩
    rw [replace?_eq, held]
    exact filled
  · intro back value middle written
    obtain ⟨inner, -, outer⟩ := fill?_append_eq_some_iff.mp (set_eq_ok_iff.mp written)
    obtain ⟨result, fresh, again⟩ := fill?_again outer other
    exact ⟨result, set_of_fill? again, set_eq_ok_iff.mpr fresh⟩

theorem overwriting_is_exact_beyond_limit :
    let document := array (List.replicate 1048580 null)
    let place := [Token.index 1048579]
    let sparse := object [("b", bool true)]
    let middle := object [("b", bool true), ("a", array [absent, object [("c", null)]])]
    document.get? place = some null ∧ document.set place null = .ok document ∧
      (∃ result, document.set place absent = .ok result ∧ document.replace? place absent = some result) ∧
      sparse.set ([.key "a"] ++ [.index 1, .key "c"]) null = .ok middle ∧
      ∃ result, middle.set [.key "a"] absent = .ok result ∧ sparse.set [.key "a"] absent = .ok result := by
  intro document place sparse middle
  have last : ∀ items : List Node, items[1048579]? = some null →
      (array items).get? place = some null := by
    intro items found
    show (items[1048579]?.bind present?).bind _ = some null
    rw [found]
    rfl
  have held : document.get? place = some null :=
    last _ (by rw [List.getElem?_replicate, if_pos (by decide)])
  have written : sparse.set ([.key "a"] ++ [.index 1, .key "c"]) null = .ok middle := rfl
  obtain ⟨same, replaced, -⟩ := overwriting_is_exact document place absent
  obtain ⟨-, -, covered⟩ := overwriting_is_exact sparse [.key "a"] absent
  exact ⟨held, same null held, replaced null held, written, covered _ null middle written⟩

end DocPath.Node
