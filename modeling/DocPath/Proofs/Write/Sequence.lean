import DocPath.Data.OptionExcept
import DocPath.Proofs.Document.Everywhere

/-! Writes one after another. Writes that all begin with one token are writes into its slot: the
container is opened once, and then only what stands in the slot changes. -/

namespace DocPath

namespace Node

def setAll (document : Node) (writes : List (Path × Node)) : Except Error Node :=
  writes.foldlM (fun document write => document.set write.1 write.2) document

def fillAll? (node : Node) (writes : List (Path × Node)) : Option Node :=
  writes.foldlM (fun node write => node.fill? write.1 write.2) node

theorem fillAll?_cons (node : Node) (write : Path × Node) (rest : List (Path × Node)) :
    node.fillAll? (write :: rest) =
      (node.fill? write.1 write.2).bind fun next => next.fillAll? rest := rfl

theorem fillAll?_append (node : Node) (first second : List (Path × Node)) :
    node.fillAll? (first ++ second) =
      (node.fillAll? first).bind fun next => next.fillAll? second := by
  unfold fillAll?
  exact List.foldlM_append

theorem setAll_cons (document : Node) (write : Path × Node) (rest : List (Path × Node)) :
    document.setAll (write :: rest) =
      (document.set write.1 write.2).bind fun next => next.setAll rest := rfl

theorem setAll_cons_of_ok {document next : Node} {write : Path × Node}
    (written : document.set write.1 write.2 = .ok next) (rest : List (Path × Node)) :
    document.setAll (write :: rest) = next.setAll rest := by
  rw [setAll_cons, written]
  rfl

theorem setAll_cons_of_error {document : Node} {write : Path × Node} {error : Error}
    (failed : document.set write.1 write.2 = .error error) (rest : List (Path × Node)) :
    document.setAll (write :: rest) = .error error := by
  rw [setAll_cons, failed]
  rfl

theorem Everywhere.setAll {holds : Node → Prop} {allowed : Token → Prop} (hole : holds .absent)
    (grows : ∀ node token child, holds node → allowed token → node.obstruction? token = none →
      child ≠ .absent → holds ((node.opened token).withSlot token child))
    {document result : Node} {writes : List (Path × Node)}
    (written : document.setAll writes = .ok result) (whole : Everywhere holds document)
    (begun : document ≠ .absent ∨ writes ≠ [])
    (each : ∀ write ∈ writes,
      (∀ token ∈ write.1, allowed token) ∧ write.2 ≠ .absent ∧ Everywhere holds write.2) :
    result ≠ .absent ∧ Everywhere holds result := by
  induction writes generalizing document with
  | nil =>
    cases written
    exact ⟨begun.resolve_right (fun none => none rfl), whole⟩
  | cons write rest ih =>
    rw [setAll_cons, Except.bind_eq_ok_iff] at written
    obtain ⟨next, first, later⟩ := written
    obtain ⟨tokens, present, inner⟩ := each write List.mem_cons_self
    obtain ⟨nextPresent, nextWhole⟩ := Everywhere.fill? hole grows (fun _ _ => ne_absent_of_fits)
      (set_eq_ok_iff.mp first) (everywhere_ground hole whole) inner present tokens
    exact ih later nextWhole (Or.inl nextPresent)
      (fun other member => each other (List.mem_cons_of_mem write member))

theorem set_of_fill? {document value result : Node} {path : Path}
    (filled : document.fill? path value = some result) : document.set path value = .ok result := by
  rw [set_eq_ok_iff]
  by_cases null : document = .null
  · subst null
    cases path with
    | nil => exact filled
    | cons token rest =>
      obtain ⟨clear, -⟩ := fill?_cons_eq_some_iff.mp filled
      cases token <;> cases clear
  · rw [ground_of_ne_null null]
    exact filled

theorem setAll_of_fillAll? {document result : Node} {writes : List (Path × Node)}
    (filled : document.fillAll? writes = some result) : document.setAll writes = .ok result := by
  induction writes generalizing document with
  | nil =>
    cases filled
    rfl
  | cons write rest ih =>
    rw [fillAll?_cons, Option.bind_eq_some_iff] at filled
    obtain ⟨next, first, others⟩ := filled
    rw [setAll_cons_of_ok (set_of_fill? first)]
    exact ih others

theorem clear_array_iff {items : List Node} {position : Index} :
    (array items).obstruction? (.index position) = none ↔
      position.val ≤ maxArrayIndex ∨ position.val < items.length := by
  rw [obstruction?_eq_none_iff]
  simp [opened, isAbsent, fits]

theorem clear_absent_iff {position : Index} :
    Node.absent.obstruction? (.index position) = none ↔ position.val ≤ maxArrayIndex := by
  rw [obstruction?_eq_none_iff]
  simp [containerFor, fits]

/-- A node that has been written through one token lets another one pass if both ask for the same
kind and it would have let the other one pass before. -/
theorem clear_withSlot_iff {node child : Node} {token other : Token}
    (clear : node.obstruction? token = none) :
    ((node.opened token).withSlot token child).obstruction? other = none ↔
      token.isKey = other.isKey ∧ node.obstruction? other = none := by
  cases node with
  | null | bool | number | string => cases token <;> cases clear
  | object fields =>
    cases token with
    | index position => cases clear
    | key name => cases other <;> simp [obstruction?, opened, isAbsent, withSlot, Token.isKey]
  | array items =>
    cases token with
    | key name => cases clear
    | index position =>
      cases other with
      | key name => simp [obstruction?, opened, isAbsent, withSlot, Token.isKey]
      | index place =>
        have before := clear_array_iff.mp clear
        show (array ((padTo (position.val + 1) items).set position.val child)).obstruction? _ = none ↔ _
        rw [clear_array_iff, clear_array_iff, List.length_set, length_padTo]
        simp only [Token.isKey, true_and]
        omega
  | absent =>
    cases token with
    | key name =>
      cases other <;> simp [obstruction?, opened, containerFor, isAbsent, withSlot, Token.isKey]
    | index position =>
      cases other with
      | key name => simp [obstruction?, opened, containerFor, isAbsent, withSlot, Token.isKey]
      | index place =>
        have before := clear_absent_iff.mp clear
        show (array ((padTo (position.val + 1) []).set position.val child)).obstruction? _ = none ↔ _
        rw [clear_array_iff, clear_absent_iff, List.length_set, length_padTo, List.length_nil]
        simp only [Token.isKey, true_and]
        omega

theorem clear_withSlot {node : Node} {token : Token} (clear : node.obstruction? token = none)
    (child : Node) : ((node.opened token).withSlot token child).obstruction? token = none :=
  (clear_withSlot_iff clear).mpr ⟨rfl, clear⟩

theorem fill?_withSlot {node : Node} {token : Token} (clear : node.obstruction? token = none)
    (child : Node) (rest : Path) (value : Node) :
    ((node.opened token).withSlot token child).fill? (token :: rest) value =
      (child.fill? rest value).map ((node.opened token).withSlot token) := by
  have fit := fits_of_clear clear
  have present : (node.opened token).withSlot token child ≠ .absent :=
    ne_absent_of_fits ((fits_withSlot _ token child token).trans fit)
  rw [fill?_cons_of_clear (clear_withSlot clear child), slot_withSlot_self fit,
    opened_of_ne_absent present]
  congr 1
  funext second
  exact withSlot_withSlot _ token child second

theorem fillAll?_withSlot {node : Node} {token : Token} (clear : node.obstruction? token = none)
    (child : Node) (writes : List (Path × Node)) :
    ((node.opened token).withSlot token child).fillAll? (writes.map (Path.under token)) =
      (child.fillAll? writes).map ((node.opened token).withSlot token) := by
  induction writes generalizing child with
  | nil => rfl
  | cons write rest ih =>
    rw [List.map_cons, fillAll?_cons, fillAll?_cons]
    show (((node.opened token).withSlot token child).fill? (token :: write.1) write.2).bind _ = _
    rw [fill?_withSlot clear, Option.bind_map, Option.map_bind]
    exact congrArg _ (funext ih)

theorem fillAll?_under {node : Node} {token : Token} (clear : node.obstruction? token = none)
    {writes : List (Path × Node)} (nonempty : writes ≠ []) :
    node.fillAll? (writes.map (Path.under token)) =
      ((node.slot token).fillAll? writes).map ((node.opened token).withSlot token) := by
  cases writes with
  | nil => exact absurd rfl nonempty
  | cons write rest =>
    rw [List.map_cons, fillAll?_cons, fillAll?_cons]
    show (node.fill? (token :: write.1) write.2).bind _ = _
    rw [fill?_cons_of_clear clear, Option.bind_map, Option.map_bind]
    exact congrArg _ (funext fun child => fillAll?_withSlot clear child rest)

end Node
end DocPath
