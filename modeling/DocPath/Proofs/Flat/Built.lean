import DocPath.Proofs.Flat.Build

/-! What building makes. Writing leaves one after another makes no empty container, no field that
holds nothing and no array that ends in a hole or is longer than the largest index allows, and every
key comes from a text that could be read. Compaction keeps all of this and takes the holes out. -/

namespace DocPath.Node

/-- A node that a copy keeps as it is, its children aside. -/
def Copyable (compact : Bool) : Node → Prop
  | .array items =>
      items ≠ [] ∧ items.length ≤ maxArrayIndex + 1 ∧
        if compact then .absent ∉ items else items.getLast? ≠ some .absent
  | .object fields =>
      fields ≠ [] ∧ ∀ field ∈ fields, (Token.key field.1).Writable ∧ field.2 ≠ .absent
  | _ => True

theorem Copyable.loose {compact : Bool} {node : Node} (copyable : node.Copyable compact) :
    node.Copyable false := by
  cases compact with
  | false => exact copyable
  | true =>
    cases node with
    | absent | null | bool | number | string => trivial
    | object fields => exact copyable
    | array items =>
      obtain ⟨nonempty, short, whole⟩ := copyable
      exact ⟨nonempty, short, fun last => whole (List.mem_of_getLast? last)⟩

theorem Copyable.writableNames {compact : Bool} {node : Node} (copyable : node.Copyable compact) :
    node.WritableNames := by
  cases node with
  | absent | null | bool | number | string | array => trivial
  | object fields => exact fun field member => (copyable.2 field member).1

theorem Copyable.addressable {compact : Bool} {node : Node} (copyable : node.Copyable compact)
    (distinct : node.DistinctNames) : node.Addressable := by
  cases node with
  | absent | null | bool | number | string => trivial
  | object fields => exact distinct
  | array items =>
    have short := copyable.2.1
    show items.length ≤ 0x10000000000000000
    unfold maxArrayIndex at short
    omega

theorem everywhere_addressable {compact : Bool} {document : Node}
    (whole : Everywhere (Copyable compact) document) (distinct : Everywhere DistinctNames document) :
    Everywhere Addressable document :=
  fun part occurs => (whole part occurs).addressable (distinct part occurs)

theorem entries_flatten_of_copyable {compact : Bool} {document : Node}
    (whole : Everywhere (Copyable compact) document) (distinct : Everywhere DistinctNames document) :
    document.flatten.entries = document.leaves.map fun leaf => (Path.text leaf.1, leaf.2) :=
  entries_flatten (everywhere_addressable whole distinct)
    (whole.mono fun _ => Copyable.writableNames)

theorem getLast?_set_padTo {items : List Node} {item : Node} {position : Nat}
    (ends : items.getLast? ≠ some .absent) (present : item ≠ .absent) :
    ((padTo (position + 1) items).set position item).getLast? ≠ some .absent := by
  rw [List.getLast?_eq_getElem?, List.length_set, length_padTo, List.getElem?_set, length_padTo]
  rw [List.getLast?_eq_getElem?] at ends
  split
  · rename_i written
    rw [if_pos (by omega)]
    intro same
    exact present (Option.some.inj same)
  · rename_i before
    have longer : position + 1 < items.length := by omega
    rw [Nat.max_eq_left (Nat.le_of_lt longer), getElem?_padTo, if_pos (by omega)]
    exact ends

theorem copyable_withSlot {node child : Node} {token : Token} (copyable : node.Copyable false)
    (writable : token.Writable) (clear : node.obstruction? token = none) (present : child ≠ .absent) :
    ((node.opened token).withSlot token child).Copyable false := by
  cases token with
  | key name =>
    have written : ∀ fields, (∀ field ∈ fields, (Token.key field.1).Writable ∧ field.2 ≠ .absent) →
        Copyable false (.object (Fields.put name child fields)) := by
      intro fields each
      constructor
      · intro empty
        have held := Fields.get?_put_self name child fields
        rw [empty] at held
        cases held
      · intro field member
        rcases Fields.mem_put member with same | before
        · subst same
          exact ⟨writable, present⟩
        · exact each field before
    cases node with
    | absent => exact written [] (fun field none => absurd none List.not_mem_nil)
    | object fields => exact written fields copyable.2
    | null | bool | number | string | array => cases clear
  | index position =>
    have written : ∀ items, items.length ≤ maxArrayIndex + 1 → items.getLast? ≠ some .absent →
        position.val ≤ maxArrayIndex ∨ position.val < items.length →
        Copyable false (.array ((padTo (position + 1) items).set position child)) := by
      intro items short ends within
      have length : ((padTo (position + 1) items).set position child).length =
          max items.length (position + 1) := by
        rw [List.length_set, length_padTo]
      refine ⟨?_, ?_, getLast?_set_padTo ends present⟩
      · intro empty
        rw [empty] at length
        simp only [List.length_nil] at length
        omega
      · rw [length]
        omega
    obtain ⟨-, limit⟩ := obstruction?_eq_none_iff.mp clear
    rcases limit position rfl with within | ⟨items, same, within⟩
    · cases node with
      | absent => exact written [] (Nat.zero_le _) (by simp) (Or.inl within)
      | array items => exact written items copyable.2.1 copyable.2.2 (Or.inl within)
      | null | bool | number | string | object => cases clear
    · subst same
      exact written items copyable.2.1 copyable.2.2 (Or.inr within)

/-- A node as building makes it, its children aside. -/
def Built (node : Node) : Prop := node.Copyable false ∧ node.DistinctNames

theorem built_absent : Built .absent := ⟨trivial, trivial⟩

theorem built_withSlot {node child : Node} {token : Token} (built : node.Built)
    (writable : token.Writable) (clear : node.obstruction? token = none) (present : child ≠ .absent) :
    ((node.opened token).withSlot token child).Built :=
  ⟨copyable_withSlot built.1 writable clear present, distinctNames_withSlot built.2 token child⟩

theorem built_of_not_container {node : Node} (single : node.isContainer = false) :
    Everywhere Built node := by
  rw [everywhere_single_iff single]
  cases node with
  | absent | null | bool | number | string => exact ⟨trivial, trivial⟩
  | array | object => cases single

theorem locate_sound {entries : List (String × Json)} {located : List (Path × Json)}
    (read : FlatMap.locate entries = .ok located) :
    ∀ entry ∈ located, Path.Writable entry.1 ∧ ∃ name, (name, entry.2) ∈ entries := by
  induction entries generalizing located with
  | nil =>
    cases read
    exact fun entry none => absurd none List.not_mem_nil
  | cons first rest ih =>
    obtain ⟨path, parsed, others, later, same⟩ := FlatMap.locate_cons_eq_ok_iff.mp read
    subst same
    intro entry member
    rcases List.mem_cons.mp member with here | inside
    · subst here
      exact ⟨Path.writable_of_parse parsed, first.1, List.mem_cons_self⟩
    · obtain ⟨writable, name, named⟩ := ih later entry inside
      exact ⟨writable, name, List.mem_cons_of_mem first named⟩

theorem located_ne_nil {entries : List (String × Json)} {located : List (Path × Json)}
    (read : FlatMap.locate entries = .ok located) (nonempty : entries ≠ []) : located ≠ [] := by
  cases entries with
  | nil => exact absurd rfl nonempty
  | cons first rest =>
    obtain ⟨path, -, others, -, same⟩ := FlatMap.locate_cons_eq_ok_iff.mp read
    subst same
    exact List.cons_ne_nil _ others

theorem built_of_entries {located : List (Path × Json)} (nonempty : located ≠ [])
    (writable : ∀ entry ∈ located, Path.Writable entry.1)
    (single : ∀ entry ∈ located, (ofJson entry.2).isContainer = false) {result : Node}
    (written : Node.absent.setAll (located.map asWrite) = .ok result) :
    result ≠ .absent ∧ Everywhere Built result := by
  refine Everywhere.setAll built_absent (fun _ _ _ => built_withSlot) written
    (built_of_not_container rfl) (Or.inr ?_) ?_
  · exact fun none => nonempty (List.map_eq_nil_iff.mp none)
  · intro write member
    obtain ⟨entry, inside, same⟩ := List.mem_map.mp member
    subst same
    exact ⟨writable entry inside, ofJson_ne_absent entry.2,
      built_of_not_container (single entry inside)⟩

theorem isContainer_compact (node : Node) : node.compact.isContainer = node.isContainer := by
  cases node <;> simp [compact, isContainer, isArray, isObject]

theorem compact_ne_absent {node : Node} (present : node ≠ .absent) : node.compact ≠ .absent := by
  intro hole
  rw [← isAbsent_iff, isAbsent_compact] at hole
  exact present (isAbsent_iff.mp hole)

theorem present_of_mem_compact {items : List Node} {item : Node}
    (member : item ∈ (items.filter fun item => !item.isAbsent).map fun item => item.compact) :
    item ≠ .absent := by
  obtain ⟨origin, inside, rfl⟩ := List.mem_map.mp member
  exact compact_ne_absent (not_isAbsent_iff.mp (List.mem_filter.mp inside).2)

theorem copyable_compact {node : Node} (copyable : node.Copyable false) :
    node.compact.Copyable true := by
  cases node with
  | absent | null | bool | number | string => simp [compact, Copyable]
  | array items =>
    obtain ⟨nonempty, short, ends⟩ := copyable
    rw [compact]
    refine ⟨?_, ?_, ?_⟩
    · intro empty
      have last := List.getLast?_eq_getLast_of_ne_nil nonempty
      have hole := List.filter_eq_nil_iff.mp (List.map_eq_nil_iff.mp empty) _
        (List.getLast_mem nonempty)
      rw [Bool.not_eq_true, Bool.not_eq_false', isAbsent_iff] at hole
      rw [last, hole] at ends
      exact ends rfl
    · rw [List.length_map]
      exact Nat.le_trans (List.length_filter_le _ items) short
    · exact fun hole => present_of_mem_compact hole rfl
  | object fields =>
    obtain ⟨nonempty, each⟩ := copyable
    rw [compact]
    constructor
    · intro empty
      exact nonempty (List.map_eq_nil_iff.mp empty)
    · intro field member
      obtain ⟨before, beforeMember, same⟩ := List.mem_map.mp member
      subst same
      obtain ⟨writable, present⟩ := each before beforeMember
      exact ⟨writable, compact_ne_absent present⟩

theorem distinctNames_compact {node : Node} (distinct : node.DistinctNames) :
    node.compact.DistinctNames := by
  cases node with
  | absent | null | bool | number | string | array => simp [compact, DistinctNames]
  | object fields =>
    rw [compact]
    show (Fields.names _).Nodup
    rw [Fields.names_map]
    exact distinct

theorem everywhere_compact {before after : Node → Prop}
    (each : ∀ node, before node → after node.compact) {node : Node}
    (whole : Everywhere before node) : Everywhere after node.compact := by
  refine everywhere_of_childwise (fun node single => ?_) (fun items => ?_) (fun fields => ?_) each whole
  · rw [isContainer_compact]
    exact single
  · refine ⟨_, by rw [compact], fun item member => ?_⟩
    obtain ⟨origin, inside, same⟩ := List.mem_map.mp member
    exact ⟨origin, (List.mem_filter.mp inside).1, same⟩
  · refine ⟨_, by rw [compact], fun field member => ?_⟩
    obtain ⟨origin, inside, same⟩ := List.mem_map.mp member
    exact ⟨origin, inside, congrArg Prod.snd same⟩

theorem built_of_build {flat : FlatMap} {compact : Bool} {result : Node}
    (single : ∀ entry ∈ flat.entries, (ofJson entry.2).isContainer = false)
    (built : flat.build compact = .ok result) :
    result ≠ .absent ∧ Everywhere (fun node => node.Copyable compact ∧ node.DistinctNames) result := by
  by_cases empty : flat.entries = []
  · rw [FlatMap.build_of_empty empty] at built
    cases built
    exact ⟨Node.noConfusion, (everywhere_single_iff rfl).mpr ⟨trivial, trivial⟩⟩
  · obtain ⟨located, read, last, written, same⟩ := (FlatMap.build_eq_ok_iff empty).mp built
    have sound := locate_sound read
    have leaf : ∀ entry ∈ located, (ofJson entry.2).isContainer = false := by
      intro entry member
      obtain ⟨-, name, named⟩ := sound entry member
      exact single _ named
    obtain ⟨present, loose⟩ := built_of_entries (located_ne_nil read empty)
      (fun entry member => (sound entry member).1) leaf written
    cases compact with
    | false =>
      cases same
      exact ⟨present, loose⟩
    | true =>
      cases same
      refine ⟨compact_ne_absent present, everywhere_compact ?_ loose⟩
      exact fun node parts => ⟨copyable_compact parts.1, distinctNames_compact parts.2⟩

end DocPath.Node
