import DocPath.Proofs.Path.Apart
import DocPath.Proofs.Write.Fill

/-! Reading after writing. Below its path a finished write has put the value, on its way there it
leaves containers that have grown by at most one slot, and apart from its path it has changed
nothing. -/

namespace DocPath.Node

theorem get?_withSlot_self {node : Node} {token : Token} (fit : node.fits token = true)
    (child : Node) (rest : Path) :
    (node.withSlot token child).get? (token :: rest) = child.get? rest := by
  rw [get?_cons_eq, slot_withSlot_self fit]

theorem get?_withSlot_of_ne {token other : Token} (differ : other ≠ token) (node child : Node)
    (rest : Path) :
    (node.withSlot token child).get? (other :: rest) = node.get? (other :: rest) := by
  rw [get?_cons_eq, get?_cons_eq, slot_withSlot_of_ne differ]

theorem get?_opened_cons (node : Node) (token other : Token) (rest : Path) :
    (node.opened token).get? (other :: rest) = node.get? (other :: rest) := by
  rw [get?_cons_eq, get?_cons_eq, slot_opened]

theorem get?_fill?_append {node value result : Node} {path : Path}
    (filled : node.fill? path value = some result) (back : Path) :
    result.get? (path ++ back) = value.get? back := by
  induction path generalizing node result with
  | nil =>
    cases filled
    rfl
  | cons token rest ih =>
    obtain ⟨clear, inner, below, rfl⟩ := fill?_cons_eq_some_iff.mp filled
    rw [List.cons_append, get?_withSlot_self (fits_of_clear clear)]
    exact ih below

theorem get?_fill?_of_apart {node value result : Node} {path other : Path}
    (filled : node.fill? path value = some result) (apart : Path.Apart path other) :
    result.get? other = node.get? other := by
  induction path generalizing node result other with
  | nil => exact absurd apart (Path.not_apart_nil other)
  | cons token rest ih =>
    obtain ⟨clear, inner, below, rfl⟩ := fill?_cons_eq_some_iff.mp filled
    cases other with
    | nil => exact absurd apart.symm (Path.not_apart_nil _)
    | cons first others =>
      by_cases same : token = first
      · subst same
        have deeper : Path.Apart rest others := Path.apart_cons_iff.mp apart rfl
        rw [get?_withSlot_self (fits_of_clear clear), get?_cons_eq]
        exact ih below deeper
      · rw [get?_withSlot_of_ne (Ne.symm same), get?_opened_cons]

theorem get?_fill?_front {node value result : Node} {front back : Path} {token : Token}
    (filled : node.fill? (front ++ token :: back) value = some result) :
    let container := ((node.get? front).getD .absent).opened token
    container.fits token = true ∧
      ∃ child, result.get? front = some (container.withSlot token child) := by
  induction front generalizing node result with
  | nil =>
    obtain ⟨clear, inner, below, rfl⟩ := fill?_cons_eq_some_iff.mp filled
    have fit := fits_of_clear clear
    have present : (node.opened token).withSlot token inner ≠ .absent :=
      ne_absent_of_fits (by rw [fits_withSlot]; exact fit)
    rw [getD_get?_nil]
    exact ⟨fit, inner, present?_of_ne_absent present⟩
  | cons first rest ih =>
    obtain ⟨clear, inner, below, rfl⟩ := fill?_cons_eq_some_iff.mp filled
    rw [get?_withSlot_self (fits_of_clear clear), get?_cons_eq]
    exact ih below

/-- `after` is the container `before` as a write through `token` leaves it: an object keeps its keys
in order with at most the key of the token behind them, an array reaches up to the index. -/
def Grown (token : Token) (before after : Node) : Prop :=
  match token, before, after with
  | .key name, .object fields, .object kept =>
      Fields.names kept = Fields.names fields ∨
        name ∉ Fields.names fields ∧ Fields.names kept = Fields.names fields ++ [name]
  | .index position, .array items, .array kept => kept.length = max items.length (position + 1)
  | _, _, _ => False

theorem grown_withSlot {node : Node} {token : Token} (fit : node.fits token = true) (child : Node) :
    Grown token node (node.withSlot token child) := by
  rcases fits_iff.mp fit with ⟨fields, name, rfl, rfl⟩ | ⟨items, position, rfl, rfl⟩
  · by_cases present : name ∈ Fields.names fields
    · exact Or.inl (Fields.names_put_of_mem present child)
    · refine Or.inr ⟨present, ?_⟩
      rw [Fields.put_of_not_mem present, Fields.names, List.map_append]
      rfl
  · show ((padTo (position + 1) items).set position child).length = _
    rw [List.length_set, length_padTo]

/-- Below its path a finished write reads as the value, on its way it leaves containers of the kind
that the next token needs, grown from those that were there, and apart from its path it changes
nothing. -/
theorem get?_set {document value result : Node} {path : Path}
    (written : document.set path value = .ok result) (place : Path) :
    (∀ back, place = path ++ back → result.get? place = value.get? back) ∧
    (∀ token back, path = place ++ token :: back →
      ∃ container, result.get? place = some container ∧ container.fits token = true ∧
        ∀ before, document.get? place = some before → before.fits token = true →
          Grown token before container) ∧
    (Path.Apart path place → result.get? place = document.get? place) := by
  have filled := set_eq_ok_iff.mp written
  refine ⟨?_, ?_, ?_⟩
  · rintro back rfl
    exact get?_fill?_append filled back
  · rintro token back rfl
    obtain ⟨fit, child, found⟩ := get?_fill?_front filled
    refine ⟨_, found, by rw [fits_withSlot]; exact fit, ?_⟩
    intro before held stepped
    have ground := get?_ground_of_fits held stepped
    rw [ground, Option.getD_some, opened_of_ne_absent (ne_absent_of_fits stepped)]
    exact grown_withSlot stepped child
  · intro apart
    rw [get?_fill?_of_apart filled apart]
    cases place with
    | nil => exact absurd apart.symm (Path.not_apart_nil path)
    | cons first rest => exact get?_ground_cons document first rest

theorem get?_set_past_end :
    let document := object [("a", array [bool true]), ("b", null)]
    let path := [Token.key "a", .index 2, .key ""]
    let result := object [("a", array [bool true, absent, object [("", string "x")]]), ("b", null)]
    document.set path (string "x") = .ok result ∧
      result.get? (path ++ []) = (string "x").get? [] ∧
      (∃ container, result.get? [.key "a"] = some container ∧ Grown (.index 2) (array [bool true]) container) ∧
      result.get? [.key "a", .index 0] = document.get? [.key "a", .index 0] := by
  intro document path result
  have written : document.set path (string "x") = .ok result := rfl
  refine ⟨written, (get?_set written _).1 [] rfl, ?_, (get?_set written _).2.2 (by decide)⟩
  obtain ⟨container, found, -, grown⟩ := (get?_set written [.key "a"]).2.1 (.index 2) [.key ""] rfl
  exact ⟨container, found, grown _ rfl rfl⟩

end DocPath.Node
