import DocPath.Proofs.Document.Spaced
import DocPath.Proofs.Typed.Person

/-! A person on the way through a flat map. The entries may stand in any order and the friends at any
increasing positions: the compacted document is the person's, and the other one has a null in place of a
friend wherever a position is left out. -/

namespace DocPath.Person

/-- The person's friends at the positions, with holes between them. -/
def spacedFriends (person : Person) (positions : List Nat) : Node :=
  .array (Node.spaced 0 (positions.zip (person.friends.map Node.string)))

section
variable (person : Person) {positions : List Nat}

theorem present_friends : ∀ friend ∈ positions.zip (person.friends.map Node.string), friend.2 ≠ .absent := by
  intro friend member
  obtain ⟨name, -, same⟩ := List.mem_map.mp (List.of_mem_zip member).2
  rw [← same]
  exact Node.noConfusion

variable (enough : positions.length = person.friends.length)
include enough

theorem map_fst_friends : (positions.zip (person.friends.map Node.string)).map Prod.fst = positions :=
  List.map_fst_zip (by simp [enough])

theorem map_snd_friends :
    (positions.zip (person.friends.map Node.string)).map Prod.snd = person.friends.map Node.string :=
  List.map_snd_zip (by simp [enough])

theorem compact_spacedFriends :
    (person.spacedFriends positions).compact = .array (person.friends.map Node.string) := by
  have single : ∀ friend ∈ person.friends, (Node.string friend).compact = .string friend :=
    fun _ _ => Node.compact_of_not_container rfl
  rw [spacedFriends, Node.compact, Node.filter_spaced (present_friends person) 0,
    map_snd_friends person enough, List.map_map]
  exact congrArg Node.array (List.map_congr_left single)

variable (increasing : positions.Pairwise (· < ·))
include increasing

theorem ascending_friends : Node.Ascending 0 (positions.zip (person.friends.map Node.string)) := by
  apply Node.ascending_of_pairwise
  · rw [map_fst_friends person enough]
    exact increasing
  · exact fun _ _ => Nat.zero_le _

theorem leaves_spacedFriends :
    (person.spacedFriends positions).leaves = (positions.zip person.friends).map fun friend =>
      ([.index (Index.ofPosition friend.1)], .string friend.2) := by
  rw [spacedFriends, Node.leaves_array, Node.leaves_spaced (ascending_friends person enough increasing),
    List.zip_map_right, List.flatMap_map, List.map_eq_flatMap]
  apply List.flatMap_congr
  intro friend _
  simp [Node.leaves, Path.under]

theorem hole_of_spacedFriends_iff :
    .absent ∈ Node.spaced 0 (positions.zip (person.friends.map Node.string)) ↔
      positions ≠ List.range person.friends.length := by
  have whole := Node.absent_not_mem_spaced_iff (ascending_friends person enough increasing)
    (present_friends person)
  rw [map_fst_friends person enough, List.length_zip, List.length_map, enough, Nat.min_self,
    ← List.range_eq_range'] at whole
  rw [Ne, ← whole, not_not]

theorem built_spacedFriends (friendly : person.friends ≠ [])
    (within : ∀ position ∈ positions, position ≤ maxArrayIndex) :
    Node.Everywhere Node.Built (person.spacedFriends positions) := by
  rw [spacedFriends, Node.everywhere_array_iff]
  have last : (Node.spaced 0 (positions.zip (person.friends.map Node.string))).getLast? =
      (person.friends.map Node.string).getLast? := by
    rw [Node.getLast?_spaced, map_snd_friends person enough]
  refine ⟨⟨⟨?_, ?_, ?_⟩, trivial⟩, ?_⟩
  · intro none
    rw [none, eq_comm, List.getLast?_nil, List.getLast?_eq_none_iff, List.map_eq_nil_iff] at last
    exact friendly last
  · rw [← Nat.zero_add (List.length _)]
    apply Node.length_spaced_le (ascending_friends person enough increasing) _ (Nat.zero_le _)
    exact fun friend member => Nat.lt_succ_of_le (within friend.1 (List.of_mem_zip member).1)
  · rw [if_neg Bool.false_ne_true, last]
    intro hole
    obtain ⟨name, -, same⟩ := List.mem_map.mp (List.mem_of_getLast? hole)
    cases same
  · intro item member
    rcases Node.mem_spaced member with hole | friend
    · rw [hole]
      exact Node.everywhere_absent Node.built_absent
    · rw [map_snd_friends person enough] at friend
      obtain ⟨name, -, same⟩ := List.mem_map.mp friend
      rw [← same]
      exact Node.built_of_not_container rfl

end

theorem compact_described (person : Person) (friends : Option Node) (spelled : Bool) :
    (person.described friends spelled).compact = person.described (friends.map Node.compact) spelled := by
  have age : (Node.ofJson person.ageValue).compact = Node.ofJson person.ageValue :=
    Node.compact_of_not_container (single_ageValue person)
  have single : ∀ field ∈ person.nameFields spelled, (field.1, field.2.compact) = field := by
    intro field member
    rcases mem_nameFields member with rfl | ⟨last, given, rfl⟩
    · rw [Node.compact_of_not_container rfl]
    · rw [Node.compact_of_not_container (single_lastName? person spelled last given)]
  have names : (Node.object (person.nameFields spelled)).compact = .object (person.nameFields spelled) := by
    rw [Node.compact, List.map_congr_left single, List.map_id']
  rw [described, Node.compact, described, fields, fields]
  cases friends <;> simp [names, age]

theorem fromFlat_described (person : Person) {friends : Option Node} {spelled : Bool}
    (inner : ∀ items ∈ friends, items ≠ .absent ∧ Node.Everywhere Node.Built items) {flat : FlatMap}
    (perm : (person.described friends spelled).flatten.entries.Perm flat.entries) (compact : Bool) :
    (Typed.fromFlat flat compact : Except Error Person) =
      match (if compact then friends.map Node.compact else friends).bind fun items =>
          (Decode.decode? items.toJson : Option (List String)) with
      | some names => .ok { person with friends := names }
      | none => .error .shapeMismatch := by
  have built := built_described person friends spelled inner
  have shape :
      (if compact then (person.described friends spelled).compact else person.described friends spelled) =
        person.described (if compact then friends.map Node.compact else friends) spelled := by
    cases compact with
    | false => rfl
    | true => exact compact_described person friends spelled
  have present : ∀ items ∈ (if compact then friends.map Node.compact else friends), items ≠ .absent := by
    cases compact with
    | false => exact fun items given => (inner items given).1
    | true =>
      intro items given
      obtain ⟨before, held, same⟩ := Option.map_eq_some_iff.mp given
      rw [← same]
      exact Node.compact_ne_absent (inner before held).1
  rw [Typed.fromFlat_of_perm unordered_person (built.mono fun _ => And.right) (built.mono fun _ => And.left)
    Node.noConfusion perm, shape, Typed.fromNode, decode?_described person _ spelled present]
  generalize Option.bind _ _ = names
  cases names <;> rfl

theorem ofJson_encode (person : Person) :
    Node.ofJson person.encode = person.described (some (.array (person.friends.map Node.string))) true := by
  have last : person.lastName? true = some (person.name.last.elim .null .string) := by
    unfold lastName?
    cases person.name.last <;> rfl
  simp [encode, encodeName, Node.ofJson, described, fields, nameFields, last, ageValue]

theorem spacedFriends_range (person : Person) :
    person.spacedFriends (List.range person.friends.length) = .array (person.friends.map Node.string) := by
  have enough : (List.range person.friends.length).length = person.friends.length := List.length_range
  have dense := mt (hole_of_spacedFriends_iff person enough List.pairwise_lt_range).mp (not_not_intro rfl)
  rw [spacedFriends, Node.spaced_of_dense dense (present_friends person), map_snd_friends person enough]

section
variable {person : Person} {positions : List Nat} {spelled : Bool} {flat : FlatMap}
  (enough : positions.length = person.friends.length)
  (perm : flat.entries.Perm (person.entries positions spelled)) (compact : Bool)
include enough perm

theorem fromFlat_friendless (friendless : person.friends = []) :
    (Typed.fromFlat flat compact : Except Error Person) = .error .shapeMismatch := by
  have inner : ∀ items ∈ (none : Option Node), items ≠ .absent ∧ Node.Everywhere Node.Built items :=
    fun _ none => absurd none (Option.not_mem_none _)
  have empty : positions = [] := List.eq_nil_of_length_eq_zero (by rw [enough, friendless]; rfl)
  have listed : (person.described none spelled).flatten.entries = person.entries positions spelled :=
    entries_described person spelled inner (by simp [empty]) (by simp [empty])
  rw [fromFlat_described person inner (listed ▸ perm.symm)]
  cases compact <;> rfl

variable (increasing : positions.Pairwise (· < ·))
  (within : ∀ position ∈ positions, position ≤ maxArrayIndex)
include increasing within

theorem fromFlat_entries (friendly : person.friends ≠ []) :
    (Typed.fromFlat flat compact : Except Error Person) =
      if compact = true ∨ positions = List.range person.friends.length then .ok person
      else .error .shapeMismatch := by
  have inner : ∀ items ∈ some (person.spacedFriends positions),
      items ≠ .absent ∧ Node.Everywhere Node.Built items := by
    intro items given
    cases given
    exact ⟨Node.noConfusion, built_spacedFriends person enough increasing friendly within⟩
  have listed := entries_described person spelled inner within (by
    simpa using leaves_spacedFriends person enough increasing)
  rw [fromFlat_described person inner (listed ▸ perm.symm)]
  have whole := decode?_strings person.friends
  cases compact with
  | true =>
    rw [if_pos rfl, if_pos (Or.inl rfl), Option.map_some, Option.bind_some,
      compact_spacedFriends person enough, whole]
  | false =>
    rw [if_neg Bool.false_ne_true, Option.bind_some]
    by_cases dense : positions = List.range person.friends.length
    · rw [if_pos (Or.inr dense), dense, spacedFriends_range, whole]
    · have hole := (hole_of_spacedFriends_iff person enough increasing).mpr dense
      rw [if_neg (by simp [dense]), spacedFriends, decode?_strings_of_hole hole]

end

theorem toFlat_entries (person : Person) (short : person.friends.length ≤ maxArrayIndex + 1) :
    ∃ flat, Typed.toFlat person = .ok flat ∧
      flat.entries = person.entries (List.range person.friends.length) true := by
  have enough : (List.range person.friends.length).length = person.friends.length := List.length_range
  have within : ∀ position ∈ List.range person.friends.length, position ≤ maxArrayIndex := by
    intro position member
    have bound := List.mem_range.mp member
    omega
  refine ⟨(Node.ofJson person.encode).flatten, rfl, ?_⟩
  have listed := leaves_spacedFriends person enough List.pairwise_lt_range
  rw [ofJson_encode, ← spacedFriends_range]
  by_cases friendless : person.friends = []
  · have leafless : (person.spacedFriends (List.range person.friends.length)).leaves = [] := by
      rw [listed, friendless]
      rfl
    have same : (person.described (some (person.spacedFriends (List.range person.friends.length)))
        true).leaves = (person.described none true).leaves := by
      rw [leaves_described, leaves_described]
      simp [leafless]
    rw [Node.flatten, same, ← Node.flatten]
    exact entries_described person true (fun _ none => absurd none (Option.not_mem_none _)) within
      (by simp [friendless])
  · refine entries_described person true ?_ within (by simpa using listed)
    intro items given
    cases given
    exact ⟨Node.noConfusion, built_spacedFriends person enough List.pairwise_lt_range friendless within⟩

/-- A person survives the way through a flat map. The entries may stand in any order, the friends at any
increasing positions, and a missing last name may be left out: with compaction they are read as the person.
Without it they are exactly if the friends stand at the first positions; a gap is read as null, which is
no name. Without any friend there is no list to be read, with compaction or without. -/
theorem survives_flat_map (person : Person) :
    (∀ (positions : List Nat) (spelled : Bool) (flat : FlatMap),
      positions.length = person.friends.length → positions.Pairwise (· < ·) →
      (∀ position ∈ positions, position ≤ maxArrayIndex) →
      flat.entries.Perm (person.entries positions spelled) →
      (person.friends ≠ [] → Typed.fromFlat flat true = .ok person ∧
        (Typed.fromFlat flat false = .ok person ↔ positions = List.range person.friends.length) ∧
        (positions ≠ List.range person.friends.length → ∃ error,
          (Typed.fromFlat flat false : Except Error Person) = .error error ∧ error.category = .decoding)) ∧
      (person.friends = [] → ∀ compact, ∃ error,
        (Typed.fromFlat flat compact : Except Error Person) = .error error ∧ error.category = .decoding)) ∧
    (1 ≤ person.friends.length → person.friends.length ≤ maxArrayIndex + 1 →
      (Typed.toFlat person).bind (fun flat => Typed.fromFlat flat true) = .ok person) ∧
    (person.friends.length = 0 → ∃ error, (Typed.toFlat person).bind (fun flat =>
      (Typed.fromFlat flat true : Except Error Person)) = .error error ∧ error.category = .decoding) := by
  refine ⟨?_, ?_, ?_⟩
  · intro positions spelled flat enough increasing within perm
    constructor
    · intro friendly
      have read := fun compact => fromFlat_entries enough perm compact increasing within friendly
      refine ⟨(read true).trans (if_pos (Or.inl rfl)), ?_, ?_⟩
      · rw [read false]
        by_cases dense : positions = List.range person.friends.length <;> simp [dense]
      · intro gap
        exact ⟨.shapeMismatch, (read false).trans (if_neg (by simp [gap])), rfl⟩
    · intro friendless compact
      exact ⟨.shapeMismatch, fromFlat_friendless enough perm compact friendless, rfl⟩
  · intro some short
    obtain ⟨flat, shown, listed⟩ := toFlat_entries person short
    have friendly : person.friends ≠ [] := List.ne_nil_of_length_pos some
    have within : ∀ position ∈ List.range person.friends.length, position ≤ maxArrayIndex :=
      fun position member => Nat.le_of_lt_succ (Nat.lt_of_lt_of_le (List.mem_range.mp member) short)
    have read := fromFlat_entries List.length_range (List.Perm.of_eq listed) true List.pairwise_lt_range
      within friendly
    rw [shown]
    exact read.trans (if_pos (Or.inl rfl))
  · intro none
    obtain ⟨flat, shown, listed⟩ := toFlat_entries person (by omega)
    have friendless : person.friends = [] := List.eq_nil_of_length_eq_zero none
    refine ⟨.shapeMismatch, ?_, rfl⟩
    rw [shown]
    exact fromFlat_friendless List.length_range (List.Perm.of_eq listed) true friendless

theorem survives_flat_map_sparse :
    let ada : Person :=
      { name := { first := "Ada", last := none }, friends := ["Charles", "Mary"], age := 36 }
    let flat := FlatMap.ofList [("age", ada.ageValue), ("friends[3]", .string "Mary"),
      ("friends[0]", .string "Charles"), ("name.first", .string "Ada")]
    let alone : Person := { ada with friends := [] }
    Typed.fromFlat flat true = .ok ada ∧
      (∃ error, (Typed.fromFlat flat false : Except Error Person) = .error error ∧
        error.category = .decoding) ∧
      (Typed.toFlat ada).bind (fun flat => Typed.fromFlat flat true) = .ok ada ∧
      ∃ error, (Typed.toFlat alone).bind (fun flat =>
        (Typed.fromFlat flat true : Except Error Person)) = .error error ∧ error.category = .decoding := by
  intro ada flat alone
  have backwards : flat.entries = (ada.entries [0, 3] false).reverse := rfl
  have perm : flat.entries.Perm (ada.entries [0, 3] false) := backwards ▸ List.reverse_perm _
  have within : ∀ position ∈ [0, 3], position ≤ maxArrayIndex := by decide
  obtain ⟨anyOrder, whole, -⟩ := survives_flat_map ada
  obtain ⟨friendly, -⟩ := anyOrder [0, 3] false flat rfl (by decide) within perm
  obtain ⟨read, -, gap⟩ := friendly (List.cons_ne_nil _ _)
  exact ⟨read, gap (by decide), whole (by decide) (by decide), (survives_flat_map alone).2.2 rfl⟩

end DocPath.Person
