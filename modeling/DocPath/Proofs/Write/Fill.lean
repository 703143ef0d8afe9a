import DocPath.Node.Write

/-! Writes that nothing stops. One step of such a write puts what the rest of it made into the slot
that its token names; everything said about finished writes follows from that step by induction on
the path. -/

namespace DocPath.Node

theorem obstruction?_eq_none_iff {node : Node} {token : Token} :
    node.obstruction? token = none ↔
      (node.opened token).fits token = true ∧ ∀ position, token = .index position →
        position.val ≤ maxArrayIndex ∨
          ∃ items, node = .array items ∧ position.val < items.length := by
  by_cases hole : node = .absent
  · subst hole
    cases token with
    | key name => simp [obstruction?, containerFor, fits]
    | index position => simp [obstruction?, containerFor, fits, reaches_iff]
  · unfold obstruction?
    rw [opened_of_ne_absent hole]
    cases node <;> cases token <;> simp [fits, reaches_iff, Decidable.or_iff_not_imp_left]

theorem fits_of_clear {node : Node} {token : Token} (clear : node.obstruction? token = none) :
    (node.opened token).fits token = true := (obstruction?_eq_none_iff.mp clear).1

theorem clear_of_slot {node : Node} {token : Token} (present : node.slot token ≠ .absent) :
    node.obstruction? token = none := by
  rw [obstruction?_eq_none_iff, opened_of_ne_absent (ne_absent_of_slot present)]
  have fit := fits_of_slot present
  refine ⟨fit, ?_⟩
  rintro position rfl
  cases node with
  | absent | null | bool | number | string | object => cases fit
  | array items => exact Or.inr ⟨items, rfl, lt_length_of_slot present⟩

/-- The node after a write below it, if nothing stops the write. -/
def fill? (node : Node) (path : Path) (value : Node) : Option Node :=
  match writeBelow value path node with
  | ⟨document, none⟩ => some document
  | ⟨_, some _⟩ => none

@[simp] theorem fill?_nil (node value : Node) : node.fill? [] value = some value := rfl

theorem fill?_eq_some_iff {node value result : Node} {path : Path} :
    node.fill? path value = some result ↔ writeBelow value path node = ⟨result, none⟩ := by
  unfold fill?
  rcases writeBelow value path node with ⟨document, _ | obstruction⟩ <;> simp

theorem writeBelow_of_clear {node : Node} {token : Token} (clear : node.obstruction? token = none)
    (rest : Path) (value : Node) :
    writeBelow value (token :: rest) node =
      ⟨(node.opened token).withSlot token (writeBelow value rest (node.slot token)).document,
        (writeBelow value rest (node.slot token)).obstruction.map Obstruction.deeper⟩ := by
  rw [writeBelow, clear]

theorem writeBelow_of_obstructed {node : Node} {token : Token} {obstruction : Obstruction}
    (blocked : node.obstruction? token = some obstruction) (rest : Path) (value : Node) :
    writeBelow value (token :: rest) node = ⟨node.opened token, some obstruction⟩ := by
  rw [writeBelow, blocked]

theorem fill?_cons_eq_some_iff {node value result : Node} {token : Token} {rest : Path} :
    node.fill? (token :: rest) value = some result ↔
      node.obstruction? token = none ∧ ∃ inner, (node.slot token).fill? rest value = some inner ∧
        (node.opened token).withSlot token inner = result := by
  rw [fill?_eq_some_iff]
  cases blocked : node.obstruction? token with
  | some obstruction => simp [writeBelow_of_obstructed blocked]
  | none =>
    simp only [writeBelow_of_clear blocked, fill?_eq_some_iff]
    rcases writeBelow value rest (node.slot token) with ⟨document, _ | obstruction⟩ <;> simp

theorem fill?_cons_of_clear {node : Node} {token : Token} (clear : node.obstruction? token = none)
    (rest : Path) (value : Node) :
    node.fill? (token :: rest) value =
      ((node.slot token).fill? rest value).map ((node.opened token).withSlot token) := by
  apply Option.ext
  intro result
  rw [fill?_cons_eq_some_iff, Option.map_eq_some_iff]
  exact and_iff_right clear

theorem set_eq_ok_iff {document value result : Node} {path : Path} :
    document.set path value = .ok result ↔ document.ground.fill? path value = some result := by
  rw [fill?_eq_some_iff]
  unfold set write
  rcases writeBelow value path document.ground with ⟨written, _ | obstruction⟩ <;> simp

theorem ground_of_ne_null {document : Node} (value : document ≠ .null) :
    document.ground = document := by
  cases document <;> first | rfl | exact absurd rfl value

theorem ground_ne_null (document : Node) : document.ground ≠ .null := by
  cases document <;> simp [ground, isNull]

theorem get?_ground_cons (document : Node) (token : Token) (rest : Path) :
    document.ground.get? (token :: rest) = document.get? (token :: rest) := by
  by_cases null : document = .null
  · subst null
    cases token <;> rfl
  · rw [ground_of_ne_null null]

theorem ground_of_fill? {node value result : Node} {path : Path} (inside : path ≠ [])
    (filled : node.fill? path value = some result) : result.ground = result := by
  cases path with
  | nil => exact absurd rfl inside
  | cons token rest =>
    obtain ⟨clear, inner, -, rfl⟩ := fill?_cons_eq_some_iff.mp filled
    have fit := (fits_withSlot _ token inner token).trans (fits_of_clear clear)
    apply ground_of_ne_null
    intro null
    rw [null] at fit
    cases token <;> cases fit

theorem get?_ground_of_fits {document before : Node} {place : Path} {token : Token}
    (held : document.get? place = some before) (fit : before.fits token = true) :
    document.ground.get? place = some before := by
  cases place with
  | cons first rest =>
    rw [get?_ground_cons]
    exact held
  | nil =>
    have null : document ≠ .null := by
      rintro rfl
      cases held
      cases token <;> cases fit
    rw [ground_of_ne_null null]
    exact held

end DocPath.Node
