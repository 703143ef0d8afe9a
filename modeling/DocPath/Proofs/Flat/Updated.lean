import DocPath.Proofs.Flat.Holding

/-! A write seen from the flat map. Writing into a document changes its flat map as an update of the
entries at the path and below it: what stood there goes and what the value brings comes in, and the
containers that a write makes on its way do not show. So a write that is stopped does not show either,
except that it may have opened a null root. -/

namespace DocPath

theorem Fields.flatMap_put {α β : Type} {name : String} {value : α} {fields : List (String × α)}
    (list : String × α → List β)
    (same : list (name, value) = ((Fields.get? name fields).map fun old => list (name, old)).getD []) :
    (Fields.put name value fields).flatMap list = fields.flatMap list := by
  induction fields with
  | nil => simpa [Fields.put] using same
  | cons field rest ih =>
    by_cases here : field.1 = name
    · subst here
      simpa [Fields.put, Fields.get?] using same
    · rw [Fields.get?, if_neg here] at same
      rw [Fields.put, if_neg here, List.flatMap_cons, List.flatMap_cons, ih same]

/-- Entries with others put in below a path: whatever stood at the path or below it goes, and so does
a leaf that was the whole document. -/
def FlatMap.updated (path : Path) (entries inner : List (Path × Json)) : List (Path × Json) :=
  (entries.filter fun entry => ¬path <+: entry.1 ∧ entry.1 ≠ []) ++
    inner.map fun entry => (path ++ entry.1, entry.2)

namespace FlatMap
variable {path : Path} {entries inner : List (Path × Json)}

theorem mem_updated_append {back : Path} {value : Json} :
    (path ++ back, value) ∈ updated path entries inner ↔ (back, value) ∈ inner := by
  simp [updated, List.prefix_append]

theorem mem_updated_of_not_prefix {place : Path} (elsewhere : ¬path <+: place) {value : Json} :
    (place, value) ∈ updated path entries inner ↔ (place, value) ∈ entries ∧ place ≠ [] := by
  have new : (place, value) ∉ inner.map fun entry => (path ++ entry.1, entry.2) := by
    intro member
    obtain ⟨entry, -, same⟩ := List.mem_map.mp member
    exact elsewhere ⟨entry.1, congrArg Prod.fst same⟩
  rw [updated, List.mem_append, or_iff_left new, List.mem_filter]
  simp [elsewhere]

theorem nodup_updated (distinct : entries.Nodup) (innerDistinct : inner.Nodup) :
    (updated path entries inner).Nodup := by
  refine List.nodup_append.mpr ⟨distinct.filter _, innerDistinct.map ?_, ?_⟩
  · intro first second same
    obtain ⟨place, value⟩ := Prod.mk.inj same
    exact Prod.ext (List.append_cancel_left place) value
  · intro entry kept other new same
    obtain ⟨origin, -, made⟩ := List.mem_map.mp new
    have elsewhere := (of_decide_eq_true (List.mem_filter.mp kept).2).1
    exact elsewhere ⟨origin.1, by rw [same, ← made]⟩

end FlatMap

namespace Node

theorem addressable_withSlot {node : Node} (addressable : node.Addressable) (token : Token)
    (child : Node) : ((node.opened token).withSlot token child).Addressable := by
  have opened : (node.opened token).Addressable := by
    refine holds_opened ?_ addressable
    cases token with
    | key name => exact List.nodup_nil
    | index position => exact Nat.zero_le _
  refine withSlot_cases opened ?_ ?_
  · intro fields name same _
    rw [same] at opened
    exact Fields.nodup_names_put opened name child
  · intro items position same _
    rw [same] at opened
    show List.length _ ≤ _
    rw [List.length_set, length_padTo]
    exact Nat.max_le.mpr ⟨opened, position.isLt⟩

theorem writableNames_withSlot {node : Node} {token : Token} (writable : node.WritableNames)
    (readable : token.Writable) (child : Node) :
    ((node.opened token).withSlot token child).WritableNames := by
  have opened : (node.opened token).WritableNames := by
    refine holds_opened ?_ writable
    cases token with
    | key name => exact fun _ none => absurd none List.not_mem_nil
    | index position => trivial
  refine withSlot_cases opened ?_ (fun _ _ _ _ => trivial)
  intro fields name same named field member
  rw [same] at opened
  rcases Fields.mem_put member with new | before
  · rw [new, ← named]
    exact readable
  · exact opened field before

theorem everywhere_set {holds : Node → Prop} {allowed : Token → Prop} (hole : holds .absent)
    (grows : ∀ node token child, holds node → allowed token →
      holds ((node.opened token).withSlot token child))
    {document value result : Node} {path : Path} (written : document.set path value = .ok result)
    (whole : Everywhere holds document) (inner : Everywhere holds value)
    (tokens : ∀ token ∈ path, allowed token) : Everywhere holds result :=
  (Everywhere.fill? hole
    (fun node token child here able _ _ => grows node token child here able) (fun _ _ _ => trivial)
    (set_eq_ok_iff.mp written) (everywhere_ground hole whole) inner trivial tokens).2

theorem addressable_set {document value result : Node} {path : Path}
    (written : document.set path value = .ok result) (addressable : Everywhere Addressable document)
    (inner : Everywhere Addressable value) : Everywhere Addressable result :=
  everywhere_set trivial
    (fun _ token child here _ => addressable_withSlot here token child) written addressable inner
    (fun _ _ => trivial)

theorem leaves_set_perm {document value result : Node} {path : Path}
    (addressable : Everywhere Addressable document) (inner : Everywhere Addressable value)
    (written : document.set path value = .ok result) :
    result.leaves.Perm (FlatMap.updated path document.leaves value.leaves) := by
  have grown := addressable_set written addressable inner
  have filled := set_eq_ok_iff.mp written
  apply (List.perm_ext_iff_of_nodup (Path.nodup_of_apart (pairwise_apart_leaves grown))
    (FlatMap.nodup_updated (Path.nodup_of_apart (pairwise_apart_leaves addressable))
      (Path.nodup_of_apart (pairwise_apart_leaves inner)))).mpr
  rintro ⟨place, leaf⟩
  rw [mem_leaves_iff grown]
  by_cases below : path <+: place
  · obtain ⟨back, split⟩ := below
    subst split
    rw [get?_fill?_append filled, FlatMap.mem_updated_append, mem_leaves_iff inner]
  · rw [FlatMap.mem_updated_of_not_prefix below, mem_leaves_iff addressable]
    rcases Path.prefix_or_apart path place with leads | leads | away
    · exact absurd leads below
    · obtain ⟨back, split⟩ := leads
      subst split
      cases back with
      | nil => exact absurd (by simp) below
      | cons token rest =>
        constructor
        · intro found
          obtain ⟨fit, child, after⟩ := get?_fill?_front filled
          have container := leaf?_of_fits (fits_withSlot _ token child token ▸ fit)
          rw [after, Option.bind_some, container] at found
          cases found
        · rintro ⟨found, notRoot⟩
          obtain ⟨first, others, same⟩ := List.exists_cons_of_ne_nil notRoot
          have before := leaf?_of_fill? filled (List.prefix_append place _) (by simp)
          rw [same, get?_ground_cons, ← same, found] at before
          cases before
    · have notRoot := away.symm.ne_nil
      obtain ⟨first, others, same⟩ := List.exists_cons_of_ne_nil notRoot
      rw [get?_fill?_of_apart filled away, and_iff_left notRoot, same, get?_ground_cons]

theorem leaves_zipIdx_congr {items others : List Node}
    (same : ∀ position : Nat,
      (items[position]?.getD .absent).leaves = (others[position]?.getD .absent).leaves) (start : Nat) :
    ((items.zipIdx start).flatMap fun item =>
        item.1.leaves.map (Path.under (.index (Index.ofPosition item.2)))) =
      (others.zipIdx start).flatMap fun item =>
        item.1.leaves.map (Path.under (.index (Index.ofPosition item.2))) := by
  induction items generalizing others start with
  | nil =>
    induction others generalizing start with
    | nil => rfl
    | cons other more ih =>
      have here : other.leaves = [] := (same 0).symm.trans leaves_absent
      rw [List.zipIdx_cons, List.flatMap_cons, here]
      exact ih (fun position => same (position + 1)) (start + 1)
  | cons item rest ih =>
    cases others with
    | nil =>
      have here : item.leaves = [] := (same 0).trans leaves_absent
      rw [List.zipIdx_cons, List.flatMap_cons, here]
      have beyond : ∀ position : Nat, (rest[position]?.getD .absent).leaves =
          (([] : List Node)[position]?.getD .absent).leaves := fun position => same (position + 1)
      exact ih beyond (start + 1)
    | cons other more =>
      have here : item.leaves = other.leaves := same 0
      rw [List.zipIdx_cons, List.zipIdx_cons, List.flatMap_cons, List.flatMap_cons, here,
        ih (fun position => same (position + 1)) (start + 1)]

theorem leaves_opened (node : Node) (token : Token) : (node.opened token).leaves = node.leaves := by
  by_cases hole : node = .absent
  · subst hole
    rw [leaves_absent]
    cases token with
    | key name => exact leaves_object []
    | index position => exact leaves_array []
  · rw [opened_of_ne_absent hole]

theorem leaves_withSlot {node child : Node} {token : Token}
    (same : child.leaves = (node.slot token).leaves) :
    (node.withSlot token child).leaves = node.leaves := by
  cases node with
  | absent | null | bool | number | string => rfl
  | object fields =>
    cases token with
    | index position => rfl
    | key name =>
      have equal : child.leaves = ((Fields.get? name fields).getD .absent).leaves := same
      show (object (Fields.put name child fields)).leaves = _
      rw [leaves_object, leaves_object]
      apply Fields.flatMap_put
      rw [equal]
      cases Fields.get? name fields with
      | none => rw [Option.getD_none, leaves_absent]; rfl
      | some old => rfl
  | array items =>
    cases token with
    | key name => rfl
    | index position =>
      have equal : child.leaves = (items[position.val]?.getD .absent).leaves := same
      show (array ((padTo (position + 1) items).set position child)).leaves = _
      rw [leaves_array, leaves_array]
      apply leaves_zipIdx_congr
      intro place
      rw [← getD_padTo (position + 1) items place, List.getElem?_set]
      split
      · rename_i here
        subst here
        rw [getD_padTo, ← equal, if_pos]
        · rfl
        · rw [length_padTo]
          omega
      · rfl

theorem leaves_fill?_of_leafless {node value result : Node} {path : Path}
    (filled : node.fill? path value = some result) (missing : node.get? path = none)
    (leafless : value.leaves = []) : result.leaves = node.leaves := by
  induction path generalizing node result with
  | nil =>
    cases filled
    have hole := getD_get?_nil node
    rw [missing] at hole
    rw [← hole, Option.getD_none, leaves_absent, leafless]
  | cons token rest ih =>
    obtain ⟨-, inner, below, same⟩ := fill?_cons_eq_some_iff.mp filled
    subst same
    rw [get?_cons_eq] at missing
    rw [← leaves_opened node token]
    exact leaves_withSlot (by rw [slot_opened]; exact ih below missing)

theorem leaves_ground (document : Node) :
    document.ground.leaves = if document.isNull then [] else document.leaves := by
  cases document <;> simp [ground, isNull, leaves_absent]

theorem leaves_write_of_error {document value : Node} {path : Path} {error : Error}
    (failed : document.set path value = .error error) :
    (document.write path value).document.leaves =
      if document.isNull ∧ error.category = .indexRange then [] else document.leaves := by
  obtain ⟨obstruction, stopped, same⟩ := set_eq_error_iff.mp failed
  cases obstruction with
  | kindMismatch depth token found =>
    have category : error.category ≠ .indexRange := same ▸ nofun
    rw [write_of_kindMismatch stopped, if_neg fun both => category both.2]
  | indexBeyondLimit depth position =>
    have category : error.category = .indexRange := same ▸ rfl
    simp only [category, and_true, ← leaves_ground]
    obtain ⟨-, -, ⟨-, unchanged⟩ | ⟨missing, made⟩⟩ := writeBelow_of_indexBeyondLimit stopped
    · rw [write, unchanged]
    · exact leaves_fill?_of_leafless made missing (leaves_array [])

/-- A finished write changes the flat map as an update does: the entries at the path and below it and an
entry for the root go, and the entries of the value come in under the path, and all others stay. A
stopped write leaves the flat map as it was, except that a null root has lost its entry if it was an
index that stopped the write. -/
theorem write_updates_flatten {document value : Node} {path : Path}
    (addressable : Everywhere Addressable document) (writable : Everywhere WritableNames document)
    (valueAddressable : Everywhere Addressable value) (valueWritable : Everywhere WritableNames value)
    (accepted : Path.validate false path = .ok ()) :
    (∃ entries inner, FlatMap.locate document.flatten.entries = .ok entries ∧
      FlatMap.locate value.flatten.entries = .ok inner ∧
      ∀ result, document.set path value = .ok result →
        result.flatten.entries.Perm
          ((FlatMap.updated path entries inner).map fun entry => (Path.text entry.1, entry.2))) ∧
    ∀ error, document.set path value = .error error →
      (document.write path value).document.flatten =
        if document.isNull ∧ error.category = .indexRange then .empty else document.flatten := by
  constructor
  · refine ⟨document.leaves, value.leaves, locate_flatten addressable writable,
      locate_flatten valueAddressable valueWritable, ?_⟩
    intro result written
    have names : Everywhere WritableNames result :=
      everywhere_set trivial (fun _ _ child here able => writableNames_withSlot here able child)
        written writable valueWritable (Path.validate_eq_ok_iff.mp accepted).1
    rw [entries_flatten (addressable_set written addressable valueAddressable) names]
    exact (leaves_set_perm addressable valueAddressable written).map _
  · intro error failed
    unfold flatten
    rw [leaves_write_of_error failed]
    split <;> rfl

theorem write_updates_flatten_mixed :
    let document := object [("a", array [bool true, null]), ("b", string "x")]
    let value := object [("c", array [null, absent])]
    let far := [Token.index 1048577, .key "d"]
    (∃ result, document.set [.key "a"] value = .ok result ∧
      result.flatten.entries.Perm [("b", .string "x"), ("a.c[0]", .null)]) ∧
    null.set far value = .error (.indexBeyondLimit far 0 1048577) ∧
      (null.write far value).document.flatten = .empty := by
  intro document value far
  have documentAddressable : Everywhere Addressable document := by
    simp [document, everywhere_object_iff, everywhere_array_iff, everywhere_single_iff, isContainer,
      isArray, isObject, Addressable]
  have documentWritable : Everywhere WritableNames document := by
    simp [document, everywhere_object_iff, everywhere_array_iff, everywhere_single_iff, isContainer,
      isArray, isObject, WritableNames, Token.Writable, Path.isDelimiter]
  have valueAddressable : Everywhere Addressable value := by
    simp [value, everywhere_object_iff, everywhere_array_iff, everywhere_single_iff, isContainer,
      isArray, isObject, Addressable]
  have valueWritable : Everywhere WritableNames value := by
    simp [value, everywhere_object_iff, everywhere_array_iff, everywhere_single_iff, isContainer,
      isArray, isObject, WritableNames, Token.Writable, Path.isDelimiter]
  have nullAddressable : Everywhere Addressable null := (everywhere_single_iff rfl).mpr trivial
  have nullWritable : Everywhere WritableNames null := (everywhere_single_iff rfl).mpr trivial
  have accepted : Path.validate false [.key "a"] = .ok () := by decide +kernel
  have farAccepted : Path.validate false far = .ok () := by decide +kernel
  obtain ⟨⟨entries, inner, read, innerRead, updates⟩, -⟩ := write_updates_flatten
    documentAddressable documentWritable valueAddressable valueWritable accepted
  obtain ⟨-, stops⟩ := write_updates_flatten nullAddressable nullWritable valueAddressable
    valueWritable farAccepted
  have leaves : document.leaves = [([.key "a", .index 0], .bool true), ([.key "a", .index 1], .null),
      ([.key "b"], .string "x")] := by
    simp only [document, Node.leaves, List.map_cons, List.map_nil]
    rfl
  have valueLeaves : value.leaves = [([.key "c", .index 0], .null)] := by
    simp only [value, Node.leaves, List.map_cons, List.map_nil]
    rfl
  rw [locate_flatten documentAddressable documentWritable, leaves] at read
  rw [locate_flatten valueAddressable valueWritable, valueLeaves] at innerRead
  cases read
  cases innerRead
  have first : Path.text [.key "b"] = "b" := by decide +kernel
  have second : Path.text [.key "a", .key "c", .index 0] = "a.c[0]" := by decide +kernel
  refine ⟨⟨_, rfl, ?_⟩, rfl, stops _ rfl⟩
  rw [← first, ← second]
  exact updates _ rfl

end Node
end DocPath
