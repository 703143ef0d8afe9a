import DocPath.Proofs.Flat.Built
import DocPath.Proofs.Flat.Compacted

/-! What compaction does to a document. It takes the holes out of arrays, at every depth, and changes
nothing else: whatever can be found behind it was found before, at the path whose indexes count the holes
too, and nothing that could be found is lost. -/

namespace DocPath.Node

/-- An array without holes. -/
def Dense : Node → Prop
  | .array items => .absent ∉ items
  | _ => True

/-- Every item of an array has an index. -/
def Indexed : Node → Prop
  | .array items => items.length ≤ 0x10000000000000000
  | _ => True

def positions (items : List Node) : List Nat :=
  (items.zipIdx.filter fun item => !item.1.isAbsent).map Prod.snd

/-- The token that leads to what a token leads to once the holes are gone: in an array the index of the
item that so many items stand before, holes not counted. -/
def origin? : Node → Token → Option Token
  | .array items, .index position =>
      ((positions items)[position.val]?.bind Index.ofNat?).map Token.index
  | _, token => some token

/-- The path of what stands at a path once the holes are gone. -/
def unpacked? : Path → Node → Option Path
  | [], _ => some []
  | token :: rest, node =>
      (node.origin? token).bind fun place => (unpacked? rest (node.slot place)).map (place :: ·)

theorem dense_compact (node : Node) : node.compact.Dense := by
  cases node with
  | absent | null | bool | number | string | object => simp [compact, Dense]
  | array items =>
    rw [compact]
    exact fun hole => present_of_mem_compact hole rfl

theorem everywhere_dense_compact (node : Node) : Everywhere Dense node.compact :=
  everywhere_compact (fun inner _ => dense_compact inner) (show Everywhere (fun _ => True) node from
    fun _ _ => trivial)

theorem everywhere_dense_of_build {flat : FlatMap} {document : Node}
    (built : flat.build true = .ok document) : Everywhere Dense document := by
  rw [FlatMap.build_eq, Except.bind_eq_ok_iff] at built
  obtain ⟨before, -, same⟩ := built
  cases same
  exact everywhere_dense_compact _

theorem compact_of_dense {node : Node} (dense : Everywhere Dense node) : node.compact = node := by
  induction node with
  | absent | null | bool | number | string => exact compact_of_not_container rfl
  | array items each =>
    obtain ⟨whole, inside⟩ := everywhere_array_iff.mp dense
    rw [compact, filter_of_dense whole, List.map_congr_left fun item member => each item member (inside item member)]
    exact congrArg array (List.map_id' items)
  | object fields each =>
    obtain ⟨-, inside⟩ := everywhere_object_iff.mp dense
    rw [compact, List.map_congr_left (g := id) fun field member => by
      rw [each field member (inside field member)]; rfl]
    exact congrArg object (List.map_id fields)

theorem getElem?_filter_present (items : List Node) (rank : Nat) :
    (items.filter fun item => !item.isAbsent)[rank]? =
      (positions items)[rank]?.bind fun position => items[position]? := by
  have kept : (items.filter fun item => !item.isAbsent) =
      (items.zipIdx.filter fun item => !item.1.isAbsent).map Prod.fst := by
    conv_lhs => rw [← List.zipIdx_map_fst 0 items, List.filter_map]
    rfl
  rw [kept, positions, List.getElem?_map, List.getElem?_map]
  cases found : (items.zipIdx.filter fun item => !item.1.isAbsent)[rank]? with
  | none => rfl
  | some item =>
    have member := (List.mem_filter.mp (List.mem_of_getElem? found)).1
    exact (List.mem_zipIdx_iff_getElem?.mp member).symm

theorem lt_length_of_position {items : List Node} {rank position : Nat}
    (found : (positions items)[rank]? = some position) : position < items.length := by
  obtain ⟨item, member, same⟩ := List.mem_map.mp (List.mem_of_getElem? found)
  subst same
  exact (List.getElem?_eq_some_iff.mp
    (List.mem_zipIdx_iff_getElem?.mp (List.mem_filter.mp member).1)).1

theorem positions_append (front back : List Node) :
    positions (front ++ back) = positions front ++ (positions back).map (front.length + ·) := by
  unfold positions
  rw [List.zipIdx_append, List.filter_append, List.map_append, Nat.zero_add, List.map_map,
    List.zipIdx_eq_map_add (l := back), List.filter_map, List.map_map]
  rfl

theorem length_positions (items : List Node) :
    (positions items).length = items.countP fun item => !item.isAbsent := by
  have kept := congrArg List.length (List.filter_map (p := fun item => !item.isAbsent)
    (f := Prod.fst) (l := items.zipIdx))
  rw [List.zipIdx_map_fst, List.length_map] at kept
  rw [positions, List.length_map, List.countP_eq_length_filter, kept]
  rfl

theorem positions_ahead {items : List Node} {position : Nat}
    (present : items[position]?.getD .absent ≠ .absent) :
    (positions items)[ahead items position]? = some position := by
  cases found : items[position]? with
  | none => exact absurd (by rw [found]; rfl) present
  | some item =>
    obtain ⟨within, same⟩ := List.getElem?_eq_some_iff.mp found
    have kept : (!item.isAbsent) = true := by
      rw [not_isAbsent_iff]
      rwa [found] at present
    have before : ahead items position = (positions (items.take position)).length :=
      (length_positions _).symm
    have behind : (positions (item :: items.drop (position + 1)))[0]? = some 0 := by
      simp [positions, List.zipIdx_cons, kept]
    have split : items.take position ++ item :: items.drop (position + 1) = items := by
      rw [← same, List.getElem_cons_drop, List.take_append_drop]
    have shifted := positions_append (items.take position) (item :: items.drop (position + 1))
    rw [split] at shifted
    rw [shifted, before, List.getElem?_append_right (Nat.le_refl _), Nat.sub_self, List.getElem?_map,
      behind]
    simp [Nat.min_eq_left (Nat.le_of_lt within)]

theorem slot_compact_of_origin {node : Node} {token place : Token}
    (origin : node.origin? token = some place) :
    node.compact.slot token = (node.slot place).compact := by
  cases node with
  | absent | null | bool | number | string =>
    cases origin
    rw [compact_of_not_container rfl, slot_of_not_container rfl, compact_of_not_container rfl]
  | object fields =>
    cases origin
    rw [compact]
    cases token with
    | index position => simp [slot, compact]
    | key name =>
      show (Fields.get? name _).getD .absent = ((Fields.get? name fields).getD .absent).compact
      rw [Fields.get?_map]
      cases Fields.get? name fields <;> simp [compact]
  | array items =>
    rw [compact]
    cases token with
    | key name =>
      cases origin
      simp [slot, compact]
    | index rank =>
      obtain ⟨index, found, rfl⟩ := Option.map_eq_some_iff.mp origin
      obtain ⟨position, held, named⟩ := Option.bind_eq_some_iff.mp found
      obtain rfl := Index.ofNat?_eq_some_iff.mp named
      have within := lt_length_of_position held
      show (List.map _ _)[rank.val]?.getD .absent = (items[index.val]?.getD .absent).compact
      rw [List.getElem?_map, getElem?_filter_present, held, Option.bind_some,
        List.getElem?_eq_getElem within]
      rfl

theorem slot_compact_of_no_origin {node : Node} {token : Token} (indexed : node.Indexed)
    (origin : node.origin? token = none) : node.compact.slot token = .absent := by
  cases node with
  | absent | null | bool | number | string | object => cases origin
  | array items =>
    cases token with
    | key name => cases origin
    | index rank =>
      have missing : (positions items)[rank.val]? = none := by
        cases held : (positions items)[rank.val]? with
        | none => rfl
        | some position =>
          have within := lt_length_of_position held
          have bound : items.length ≤ 0x10000000000000000 := indexed
          rw [origin?, held, Option.bind_some, Index.ofNat?, dif_pos (by omega)] at origin
          cases origin
      rw [compact]
      show (List.map _ _)[rank.val]?.getD absent = absent
      rw [List.getElem?_map, getElem?_filter_present, missing]
      rfl

theorem present?_compact (node : Node) :
    node.compact.present? = node.present?.map fun inner => inner.compact := by
  unfold present?
  rw [isAbsent_compact]
  split <;> rfl

theorem get?_compact_of_unpacked {node : Node} {path place : Path}
    (origin : unpacked? path node = some place) :
    node.compact.get? path = (node.get? place).map fun inner => inner.compact := by
  induction path generalizing node place with
  | nil =>
    cases origin
    exact present?_compact node
  | cons token rest ih =>
    obtain ⟨step, here, below⟩ := Option.bind_eq_some_iff.mp origin
    obtain ⟨others, later, rfl⟩ := Option.map_eq_some_iff.mp below
    rw [get?_cons_eq, get?_cons_eq, slot_compact_of_origin here, ih later]

theorem get?_compact_of_no_unpacked {node : Node} {path : Path} (indexed : Everywhere Indexed node)
    (origin : unpacked? path node = none) : node.compact.get? path = none := by
  induction path generalizing node with
  | nil => cases origin
  | cons token rest ih =>
    obtain ⟨here, inside⟩ := everywhere_iff.mp indexed
    rw [get?_cons_eq]
    cases step : node.origin? token with
    | none => rw [slot_compact_of_no_origin here step, get?_absent]
    | some place =>
      rw [unpacked?, step, Option.bind_some, Option.map_eq_none_iff] at origin
      rw [slot_compact_of_origin step]
      exact ih (inside.slot trivial place) origin

theorem origin?_moved {node : Node} {token : Token} (present : node.slot token ≠ .absent) :
    node.origin? (node.moved token) = some token := by
  cases node with
  | absent | null | bool | number | string | object => rfl
  | array items =>
    cases token with
    | key name => rfl
    | index position =>
      have bound : ahead items position.val < 0x10000000000000000 := by
        have counted := List.countP_le_length (p := fun item : Node => !item.isAbsent)
          (l := items.take position.val)
        rw [List.length_take] at counted
        exact Nat.lt_of_le_of_lt (Nat.le_trans counted (Nat.min_le_left _ _)) position.isLt
      have named : Index.ofNat? position.val = some position := Index.ofNat?_eq_some_iff.mpr rfl
      rw [moved, origin?, Index.val_ofPosition bound, positions_ahead present, Option.bind_some, named]
      rfl

/-- What is found at a place stands, once the holes are gone, where the place has moved. -/
theorem unpacked?_packed {node inner : Node} {place : Path} (held : node.get? place = some inner) :
    unpacked? (packed place node) node = some place := by
  induction place generalizing node with
  | nil => rfl
  | cons token rest ih =>
    rw [get?_cons_eq] at held
    rw [packed, unpacked?, origin?_moved (ne_absent_of_get? held), Option.bind_some, ih held]
    rfl

/-- Compaction leaves no array with a hole, and it leaves a document as it is exactly if there is none.
What is found at a path behind it is what was found, at the path that counts the holes too, compacted in
turn; and whatever was found before is still found. Objects keep their fields in order, also those that hold
nothing. -/
theorem compact_only_renumbers (document : Node) :
    Everywhere Dense document.compact ∧
    (document.compact = document ↔ Everywhere Dense document) ∧
    document.compact.compact = document.compact ∧
    (Everywhere Indexed document → ∀ path found, document.compact.get? path = some found ↔
      ∃ place, unpacked? path document = some place ∧
        ∃ inner, document.get? place = some inner ∧ inner.compact = found) ∧
    (∀ place inner, document.get? place = some inner →
      ∃ path, unpacked? path document = some place ∧
        document.compact.get? path = some inner.compact) ∧
    ∀ path place fields, unpacked? path document = some place →
      document.get? place = some (object fields) →
      ∃ kept, document.compact.get? path = some (object kept) ∧
        List.Forall₂ (fun field left => left.1 = field.1 ∧ left.2 = field.2.compact ∧
          (left.2 = absent ↔ field.2 = absent)) fields kept := by
  have dense := everywhere_dense_compact document
  refine ⟨dense, ⟨fun same => same ▸ dense, compact_of_dense⟩, compact_of_dense dense, ?_, ?_, ?_⟩
  · intro indexed path found
    cases origin : unpacked? path document with
    | none => simp [get?_compact_of_no_unpacked indexed origin]
    | some place => simp [get?_compact_of_unpacked origin]
  · intro place inner held
    have origin := unpacked?_packed held
    exact ⟨_, origin, by rw [get?_compact_of_unpacked origin, held]; rfl⟩
  · intro path place fields origin held
    refine ⟨_, by rw [get?_compact_of_unpacked origin, held, Option.map_some, compact], ?_⟩
    rw [List.forall₂_map_right_iff, List.forall₂_same]
    exact fun field _ => ⟨rfl, rfl, by rw [← isAbsent_iff, isAbsent_compact, isAbsent_iff]⟩

theorem compact_only_renumbers_nested :
    let inner := array [absent, null]
    let document := array [absent, object [("x", absent), ("y", inner)], absent, bool true]
    let path := [Token.index 0, .key "y", .index 0]
    let place := [Token.index 1, .key "y", .index 1]
    Everywhere Indexed document ∧ unpacked? path document = some place ∧
      document.get? place = some null ∧ document.compact.get? path = some null ∧
      document.compact.get? [.index 2] = none ∧
      (∃ back, unpacked? back document = some place ∧ document.compact.get? back = some null.compact) ∧
      ∃ kept, document.compact.get? [.index 0] = some (object kept) ∧
        List.Forall₂ (fun field left => left.1 = field.1 ∧ left.2 = field.2.compact ∧
          (left.2 = absent ↔ field.2 = absent)) [("x", absent), ("y", inner)] kept := by
  intro inner document path place
  have indexed : Everywhere Indexed document := by
    simp [document, inner, everywhere_object_iff, everywhere_array_iff, everywhere_single_iff,
      isContainer, isArray, isObject, Indexed]
  have origin : unpacked? path document = some place := rfl
  have held : document.get? place = some null := rfl
  obtain ⟨-, -, -, reads, nothingLost, objects⟩ := compact_only_renumbers document
  refine ⟨indexed, origin, held, ?_, ?_, nothingLost place null held, objects [.index 0] [.index 1] _ rfl rfl⟩
  · exact (reads indexed path null).mpr ⟨place, origin, null, held, compact_of_not_container rfl⟩
  · refine Option.eq_none_iff_forall_ne_some.mpr fun found present => ?_
    obtain ⟨beyond, missing, -⟩ := (reads indexed [.index 2] found).mp present
    cases missing

end DocPath.Node
