import DocPath.Proofs.Document.Projection
import DocPath.Proofs.Flat.Built
import DocPath.Proofs.Write.Failure
import DocPath.Proofs.Write.Overwrite

/-! Holes stay between items. A write opens slots before it fills them and pads arrays up to its index,
and it may be stopped in between; yet no document that edits make out of a clean one has a field that
holds nothing or an array that ends in a hole. -/

namespace DocPath.Node

/-- A container has its holes between items: no field holds nothing and no array ends in a hole. -/
def Sealed : Node → Prop
  | .array items => items.getLast? ≠ some .absent
  | .object fields => ∀ field ∈ fields, field.2 ≠ .absent
  | _ => True

/-- A document that is there, with no hole except between the items of arrays. -/
structure Clean (document : Node) : Prop where
  present : document ≠ .absent
  interior : Everywhere Sealed document

theorem clean_of_not_container {node : Node} (present : node ≠ .absent)
    (single : node.isContainer = false) : node.Clean where
  present := present
  interior := by
    rw [everywhere_single_iff single]
    cases node with
    | absent | null | bool | number | string => trivial
    | array | object => cases single

theorem sealed_containerFor (token : Token) : (containerFor token).Sealed := by
  cases token with
  | key name => exact fun _ none => absurd none List.not_mem_nil
  | index position => simp [containerFor, Sealed]

theorem clean_array_nil : (array []).Clean where
  present := Node.noConfusion
  interior := everywhere_array_iff.mpr
    ⟨sealed_containerFor (.index 0), fun _ none => absurd none List.not_mem_nil⟩

theorem sealed_withSlot {node child : Node} {token : Token} (sealed : node.Sealed)
    (present : child ≠ .absent) : ((node.opened token).withSlot token child).Sealed := by
  have opened : (node.opened token).Sealed := holds_opened (sealed_containerFor token) sealed
  refine withSlot_cases opened ?_ ?_
  · intro fields name same _ field member
    rw [same] at opened
    rcases Fields.mem_put member with new | before
    · rw [new]
      exact present
    · exact opened field before
  · intro items position same _
    rw [same] at opened
    exact getLast?_set_padTo opened present

theorem Clean.fill? {node value result : Node} {path : Path} (interior : Everywhere Sealed node)
    (clean : value.Clean) (filled : node.fill? path value = some result) : result.Clean := by
  obtain ⟨present, whole⟩ := Everywhere.fill? trivial
    (fun _ _ _ sealed _ _ => sealed_withSlot sealed) (fun _ _ => ne_absent_of_fits) filled interior
    clean.interior clean.present (fun _ _ => trivial)
  exact ⟨present, whole⟩

theorem Clean.set {document value result : Node} {path : Path} (clean : document.Clean)
    (inner : value.Clean) (written : document.set path value = .ok result) : result.Clean :=
  .fill? (everywhere_ground trivial clean.interior) inner (set_eq_ok_iff.mp written)

theorem Clean.write {document value : Node} (clean : document.Clean) (inner : value.Clean)
    (path : Path) : (document.write path value).document.Clean := by
  obtain unchanged | finished | ⟨depth, made⟩ := write_cases document path value
  · rw [unchanged]
    exact clean
  · exact clean.set inner finished
  · exact clean.set clean_array_nil made

theorem Clean.replace? {document value result : Node} {path : Path} (clean : document.Clean)
    (inner : value.Clean) (replaced : document.replace? path value = some result) : result.Clean :=
  .fill? clean.interior inner (fill?_of_replace? replaced)

theorem Clean.take? {document taken result : Node} {path : Path} (clean : document.Clean)
    (done : document.take? path = some (taken, result)) : result.Clean := by
  obtain ⟨found, -, left⟩ := Option.bind_eq_some_iff.mp done
  obtain ⟨other, replaced, same⟩ := Option.bind_eq_some_iff.mp left
  cases same
  exact clean.replace? (clean_of_not_container (show null ≠ absent from Node.noConfusion) rfl) replaced

theorem sealed_compact {node : Node} (sealed : node.Sealed) : node.compact.Sealed := by
  cases node with
  | absent | null | bool | number | string => simp [compact, Sealed]
  | array items =>
    rw [compact]
    exact fun last => present_of_mem_compact (List.mem_of_getLast? last) rfl
  | object fields =>
    rw [compact]
    intro field member
    obtain ⟨before, inside, same⟩ := List.mem_map.mp member
    subst same
    exact compact_ne_absent (sealed before inside)

theorem Clean.compact {document : Node} (clean : document.Clean) : document.compact.Clean where
  present := compact_ne_absent clean.present
  interior := everywhere_compact (fun _ => sealed_compact) clean.interior

theorem clean_ofJson (value : Json) : (ofJson value).Clean where
  present := ofJson_ne_absent value
  interior := by
    intro part occurs
    obtain ⟨inner, same⟩ := ofJson_of_occurs occurs value rfl
    subst same
    cases inner with
    | null | bool | number | string => simp [ofJson, Sealed]
    | array values =>
      rw [ofJson]
      intro last
      obtain ⟨item, -, equal⟩ := List.mem_map.mp (List.mem_of_getLast? last)
      exact ofJson_ne_absent item equal
    | object values =>
      rw [ofJson]
      intro field member
      obtain ⟨item, -, equal⟩ := List.mem_map.mp member
      subst equal
      exact ofJson_ne_absent item.2

theorem clean_of_build {flat : FlatMap} {compact : Bool} {result : Node}
    (built : flat.build compact = .ok result) : result.Clean := by
  by_cases empty : flat.entries = []
  · rw [FlatMap.build_of_empty empty] at built
    cases built
    exact clean_of_not_container Node.noConfusion rfl
  · obtain ⟨located, read, last, written, same⟩ := (FlatMap.build_eq_ok_iff empty).mp built
    subst same
    have begun : located.map asWrite ≠ [] :=
      fun none => located_ne_nil read empty (List.map_eq_nil_iff.mp none)
    have each : ∀ write ∈ located.map asWrite,
        (∀ token ∈ write.1, True) ∧ write.2 ≠ .absent ∧ Everywhere Sealed write.2 := by
      intro write member
      obtain ⟨entry, -, same⟩ := List.mem_map.mp member
      subst same
      have inner := clean_ofJson entry.2
      exact ⟨fun _ _ => trivial, inner.present, inner.interior⟩
    obtain ⟨present, interior⟩ := Everywhere.setAll trivial
      (fun _ _ _ sealed _ _ => sealed_withSlot sealed) written (everywhere_absent trivial)
      (Or.inr begun) each
    have clean : last.Clean := ⟨present, interior⟩
    cases compact with
    | false => exact clean
    | true => exact clean.compact

/-- What can be done to a document that is held. -/
inductive Edit where
  | write (path : Path) (value : Node)
  | replace (path : Path) (value : Node)
  | take (path : Path)
  | compact
  | copy (dense : Bool)
  | build (flat : FlatMap) (dense : Bool)

/-- The document after an edit. A write that is stopped leaves what it has made by then; any other edit
that fails leaves the document alone. -/
def Edit.apply (document : Node) : Edit → Node
  | .write path value => (document.write path value).document
  | .replace path value => (document.replace? path value).getD document
  | .take path => ((document.take? path).map Prod.snd).getD document
  | .compact => document.compact
  | .copy dense => (document.copy dense).toOption.getD document
  | .build flat dense => (flat.build dense).toOption.getD document

def Edit.Clean : Edit → Prop
  | .write _ value | .replace _ value => value.Clean
  | .take _ | .compact | .copy _ | .build _ _ => True

theorem Clean.getD {document : Node} (clean : document.Clean) {found : Option Node}
    (each : ∀ result, found = some result → result.Clean) : (found.getD document).Clean := by
  cases found with
  | none => exact clean
  | some result => exact each result rfl

theorem Clean.build {document : Node} (clean : document.Clean) (flat : FlatMap) (compact : Bool) :
    ((flat.build compact).toOption.getD document).Clean := by
  cases done : flat.build compact with
  | error fault => exact clean
  | ok result => exact clean_of_build done

theorem Clean.apply {document : Node} (clean : document.Clean) {edit : Edit} (inner : edit.Clean) :
    (edit.apply document).Clean := by
  cases edit with
  | write path value => exact clean.write inner path
  | replace path value => exact clean.getD fun result => clean.replace? inner
  | take path =>
    refine clean.getD fun result left => ?_
    obtain ⟨⟨taken, rest⟩, done, same⟩ := Option.map_eq_some_iff.mp left
    subst same
    exact clean.take? done
  | compact => exact clean.compact
  | copy dense => exact clean.build document.flatten dense
  | build flat dense => exact clean.build flat dense

/-- Every document that edits pass through is clean if the first one is and so is all that they put
into it, also where a write is stopped on its way. -/
theorem clean_run {document : Node} (clean : document.Clean) {edits : List Edit}
    (inner : ∀ edit ∈ edits, edit.Clean) {done : List Edit} (reached : done <+: edits) :
    (done.foldl Edit.apply document).Clean := by
  induction edits generalizing document done with
  | nil =>
    rw [List.prefix_nil.mp reached]
    exact clean
  | cons edit rest ih =>
    rcases List.prefix_cons_iff.mp reached with none | ⟨others, split, later⟩
    · rw [none]
      exact clean
    · rw [split, List.foldl_cons]
      exact ih (clean.apply (inner edit List.mem_cons_self))
        (fun other member => inner other (List.mem_cons_of_mem edit member)) later

theorem clean_run_behind_padding :
    let document := object [("a", array [bool true, absent, null])]
    let edits := [Edit.write [.key "a", .index 4, .key "b", .index 1048577] null,
      .take [.key "a", .index 4, .key "b"], .copy true]
    let left := object [("a", array [bool true, absent, null, absent, object [("b", array [])]])]
    (edits.take 1).foldl Edit.apply document = left ∧ left.Clean ∧
      (edits.foldl Edit.apply document).Clean := by
  intro document edits left
  have clean : document.Clean := by
    refine ⟨Node.noConfusion, ?_⟩
    simp [document, everywhere_object_iff, everywhere_array_iff, everywhere_single_iff, isContainer,
      isArray, isObject, Sealed]
  have inner : ∀ edit ∈ edits, edit.Clean := by
    have value : Node.null.Clean := clean_of_not_container Node.noConfusion rfl
    simpa [edits, Edit.Clean] using value
  have made : (edits.take 1).foldl Edit.apply document = left := rfl
  exact ⟨made, made ▸ clean_run clean inner (List.take_prefix 1 edits),
    clean_run clean inner (List.prefix_refl edits)⟩

end DocPath.Node
