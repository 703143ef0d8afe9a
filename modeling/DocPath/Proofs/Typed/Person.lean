import DocPath.Typed.Person
import DocPath.Proofs.Typed.Unordered

/-! A person as a document and as the entries of a flat map. The last name may be left out, and whatever
stands for the friends may be there or not; the rest is given by the person. -/

namespace DocPath.Person

/-- The last name as a value of a flat map: a missing one is spelled out as null or left out. -/
def lastName? (person : Person) (spelled : Bool) : Option Json :=
  match person.name.last with
  | some last => some (.string last)
  | none => if spelled then some .null else none

theorem age_lt (person : Person) : person.age.val < 0x10000000000000000 := by omega

def ageValue (person : Person) : Json := .number (.ofNat person.age person.age_lt)

/-- The entries of a flat map that describe the person, with the friends at the positions. -/
def entries (person : Person) (positions : List Nat) (spelled : Bool) : List (String × Json) :=
  ("name.first", .string person.name.first) ::
    ((person.lastName? spelled).toList.map fun last => ("name.last", last)) ++
    ((positions.zip person.friends).map fun friend =>
      ("friends[" ++ Nat.repr friend.1 ++ "]", .string friend.2)) ++
    [("age", person.ageValue)]

def nameFields (person : Person) (spelled : Bool) : List (String × Node) :=
  ("first", .string person.name.first) ::
    (person.lastName? spelled).toList.map fun last => ("last", Node.ofJson last)

def fields (person : Person) (friends : Option Node) (spelled : Bool) : List (String × Node) :=
  ("name", .object (person.nameFields spelled)) ::
    (friends.toList.map fun items => ("friends", items)) ++ [("age", Node.ofJson person.ageValue)]

/-- A document with what there is of the person but the friends, and with these as given. -/
def described (person : Person) (friends : Option Node) (spelled : Bool) : Node :=
  .object (person.fields friends spelled)

theorem decode?_of_fields {json : Json} {name friends age : Option Json}
    (fields : Typed.recordFields? ["name", "friends", "age"] json = some [name, friends, age]) :
    decode? json = (name.bind decodeName?).bind fun name => (Typed.required? friends).bind fun friends =>
      (age.bind decodeAge?).bind fun age => some { name, friends, age } := by
  rw [decode?, fields]
  rfl

theorem unordered_name : Typed.Unordered decodeName? := by
  intro value other same
  have rel := Typed.recordFields?_rel ["first", "last"] same
  unfold decodeName?
  generalize Typed.recordFields? ["first", "last"] value = one at rel
  generalize Typed.recordFields? ["first", "last"] other = two at rel
  cases rel with
  | none => rfl
  | some each =>
    rcases each with _ | ⟨first, _ | ⟨last, _ | _⟩⟩
    · rfl
    · rfl
    · simp only [Option.bind_eq_bind, Option.bind_some, Typed.required?_eq Typed.unordered_string first,
        Typed.optional?_eq Typed.unordered_string last]
    · rfl

theorem unordered_age : Typed.Unordered decodeAge? := by
  intro value other same
  have kinds := same.kind_eq
  cases value with
  | null | bool | string | array | object =>
    cases other <;> cases kinds
    rfl
  | number amount =>
    cases other with
    | null | bool | string | array | object => cases kinds
    | number sum =>
      cases amount with
      | float => cases sum with
        | float => rfl
        | int => simpa [Node.Alike.SameValue, Node.ofJson, Node.same, Number.same] using same.same
      | int value inRange => cases sum with
        | float => simpa [Node.Alike.SameValue, Node.ofJson, Node.same, Number.same] using same.same
        | int value inRange =>
          obtain rfl := same.int_eq
          rfl

theorem unordered_person : Typed.Unordered (Decode.decode? : Json → Option Person) := by
  intro value other same
  have rel := Typed.recordFields?_rel ["name", "friends", "age"] same
  show decode? value = decode? other
  unfold decode?
  generalize Typed.recordFields? ["name", "friends", "age"] value = one at rel
  generalize Typed.recordFields? ["name", "friends", "age"] other = two at rel
  cases rel with
  | none => rfl
  | some each =>
    rcases each with _ | ⟨name, _ | ⟨friends, _ | ⟨age, _ | _⟩⟩⟩
    · rfl
    · rfl
    · rfl
    · simp only [Option.bind_eq_bind, Option.bind_some, Typed.bind_eq unordered_name name,
        Typed.required?_eq (Typed.unordered_list Typed.unordered_string) friends,
        Typed.bind_eq unordered_age age]
    · rfl

section
variable {person : Person} {friends : Option Node} {spelled : Bool} {field : String × Node}

theorem mem_nameFields (member : field ∈ person.nameFields spelled) :
    field = ("first", .string person.name.first) ∨
      ∃ last ∈ person.lastName? spelled, field = ("last", Node.ofJson last) := by
  rcases List.mem_cons.mp member with first | last
  · exact Or.inl first
  · obtain ⟨value, given, same⟩ := List.mem_map.mp last
    exact Or.inr ⟨value, Option.mem_toList.mp given, same.symm⟩

theorem present_nameFields (member : field ∈ person.nameFields spelled) : field.2 ≠ .absent := by
  rcases mem_nameFields member with rfl | ⟨last, -, rfl⟩
  · exact Node.noConfusion
  · exact Node.ofJson_ne_absent last

theorem mem_fields (member : field ∈ person.fields friends spelled) :
    field = ("name", .object (person.nameFields spelled)) ∨
      (∃ items ∈ friends, field = ("friends", items)) ∨ field = ("age", Node.ofJson person.ageValue) := by
  rcases List.mem_cons.mp member with name | others
  · exact Or.inl name
  · rcases List.mem_append.mp others with held | age
    · obtain ⟨items, given, same⟩ := List.mem_map.mp held
      exact Or.inr (Or.inl ⟨items, Option.mem_toList.mp given, same.symm⟩)
    · exact Or.inr (Or.inr (List.mem_singleton.mp age))

theorem present_fields (given : ∀ items ∈ friends, items ≠ .absent)
    (member : field ∈ person.fields friends spelled) : field.2 ≠ .absent := by
  rcases mem_fields member with rfl | ⟨items, held, rfl⟩ | rfl
  · exact Node.noConfusion
  · exact given items held
  · exact Node.ofJson_ne_absent _

end

section
variable (person : Person) (friends : Option Node) (spelled : Bool)

theorem optional?_lastName? :
    (Typed.optional? (person.lastName? spelled) : Option (Option String)) = some person.name.last := by
  unfold lastName?
  cases person.name.last with
  | some last => rfl
  | none => cases spelled <;> rfl

theorem decodeName?_nameFields :
    decodeName? (Node.object (person.nameFields spelled)).toJson = some person.name := by
  have fields : Typed.recordFields? ["first", "last"] (Node.object (person.nameFields spelled)).toJson =
      some [some (.string person.name.first), person.lastName? spelled] := by
    rw [Typed.recordFields?_toJson fun _ => present_nameFields, nameFields]
    cases person.lastName? spelled <;> simp [Fields.get?, Node.toJson, Node.toJson_ofJson]
  rw [decodeName?, fields]
  simp [Typed.required?, Decode.decode?, optional?_lastName?]

theorem decodeAge?_ageValue : decodeAge? person.ageValue = some person.age := by
  have small : (person.age.val : Int) < 0x100000000 := by omega
  simp [ageValue, Number.ofNat, decodeAge?, small]

theorem decode?_described (given : ∀ items ∈ friends, items ≠ .absent) :
    (Decode.decode? (person.described friends spelled).toJson : Option Person) =
      (friends.bind fun items => (Decode.decode? items.toJson : Option (List String))).map
        fun names => { person with friends := names } := by
  have found : Typed.recordFields? ["name", "friends", "age"] (person.described friends spelled).toJson =
      some [some (Node.object (person.nameFields spelled)).toJson, friends.map Node.toJson,
        some person.ageValue] := by
    rw [described, Typed.recordFields?_toJson fun _ => present_fields given, fields]
    cases friends <;> simp [Fields.get?, Node.toJson_ofJson]
  show decode? _ = _
  rw [decode?_of_fields found, Option.bind_some, decodeName?_nameFields, Option.bind_some,
    Option.bind_some, decodeAge?_ageValue, Typed.required?, Option.bind_map, Option.map_eq_bind]
  rfl

theorem decode?_strings (names : List String) :
    Decode.decode? (Node.array (names.map Node.string)).toJson = some names := by
  have items : (Node.array (names.map Node.string)).toJson = .array (names.map Json.string) := by
    rw [Node.toJson, List.map_map]
    exact congrArg Json.array (List.map_congr_left fun _ _ => by rw [Function.comp_apply, Node.toJson])
  have each : ∀ texts : List String,
      (texts.map Json.string).mapM (Decode.decode? : Json → Option String) = some texts := by
    intro texts
    induction texts with
    | nil => rfl
    | cons text rest ih =>
      rw [List.map_cons, List.mapM_cons, ih]
      rfl
  rw [items]
  exact each names

theorem decode?_strings_of_hole {items : List Node} (hole : .absent ∈ items) :
    (Decode.decode? (Node.array items).toJson : Option (List String)) = none := by
  rw [Node.toJson]
  show (items.map fun item => item.toJson).mapM (Decode.decode? : Json → Option String) = none
  induction items with
  | nil => cases hole
  | cons item rest ih =>
    rw [List.map_cons, List.mapM_cons]
    rcases List.mem_cons.mp hole with here | later
    · rw [← here, Node.toJson]
      rfl
    · rw [ih later]
      cases (Decode.decode? item.toJson : Option String) <;> rfl

theorem single_lastName? : ∀ last ∈ person.lastName? spelled, (Node.ofJson last).isContainer = false := by
  intro last given
  unfold lastName? at given
  cases held : person.name.last with
  | some text =>
    rw [held] at given
    cases given
    simp [Node.ofJson, Node.isContainer, Node.isArray, Node.isObject]
  | none =>
    rw [held] at given
    cases spelled <;> cases given
    simp [Node.ofJson, Node.isContainer, Node.isArray, Node.isObject]

theorem single_ageValue : (Node.ofJson person.ageValue).isContainer = false := by
  simp [ageValue, Node.ofJson, Node.isContainer, Node.isArray, Node.isObject]

theorem built_described (inner : ∀ items ∈ friends, items ≠ .absent ∧ Node.Everywhere Node.Built items) :
    Node.Everywhere Node.Built (person.described friends spelled) := by
  have names : Node.Everywhere Node.Built (.object (person.nameFields spelled)) := by
    rw [Node.everywhere_object_iff]
    refine ⟨⟨⟨List.cons_ne_nil _ _, ?_⟩, ?_⟩, ?_⟩
    · intro field member
      refine ⟨?_, present_nameFields member⟩
      rcases mem_nameFields member with rfl | ⟨last, -, rfl⟩
      · exact show (Token.key "first").Writable by decide
      · exact show (Token.key "last").Writable by decide
    · show (Fields.names (person.nameFields spelled)).Nodup
      unfold nameFields
      cases person.lastName? spelled <;> simp
    · intro field member
      rcases mem_nameFields member with rfl | ⟨last, given, rfl⟩
      · exact Node.built_of_not_container rfl
      · exact Node.built_of_not_container (single_lastName? person spelled last given)
  rw [described, Node.everywhere_object_iff]
  refine ⟨⟨⟨List.cons_ne_nil _ _, ?_⟩, ?_⟩, ?_⟩
  · intro field member
    refine ⟨?_, present_fields (fun items given => (inner items given).1) member⟩
    rcases mem_fields member with rfl | ⟨items, given, rfl⟩ | rfl
    · exact show (Token.key "name").Writable by decide
    · exact show (Token.key "friends").Writable by decide
    · exact show (Token.key "age").Writable by decide
  · show (Fields.names (person.fields friends spelled)).Nodup
    unfold fields
    cases friends <;> simp
  · intro field member
    rcases mem_fields member with rfl | ⟨items, given, rfl⟩ | rfl
    · exact names
    · exact (inner items given).2
    · exact Node.built_of_not_container (single_ageValue person)

theorem leaves_described :
    (person.described friends spelled).leaves =
      ([.key "name", .key "first"], .string person.name.first) ::
        ((person.lastName? spelled).toList.map fun last => ([Token.key "name", .key "last"], last)) ++
        (friends.toList.flatMap Node.leaves).map (Path.under (.key "friends")) ++
        [([.key "age"], person.ageValue)] := by
  have age : (Node.ofJson person.ageValue).leaves = [([], person.ageValue)] :=
    Node.leaves_ofJson (single_ageValue person)
  have names : (Node.object (person.nameFields spelled)).leaves =
      ([.key "first"], .string person.name.first) ::
        (person.lastName? spelled).toList.map fun last => ([Token.key "last"], last) := by
    rw [Node.leaves_object, nameFields, List.flatMap_cons]
    cases given : person.lastName? spelled with
    | none => simp [Node.leaves, Path.under]
    | some last =>
      have leaf := Node.leaves_ofJson (single_lastName? person spelled last given)
      simp [Node.leaves, Path.under, leaf]
  rw [described, Node.leaves_object, fields]
  cases friends with
  | none => simp [names, age, Path.under]
  | some items => simp [names, age, Path.under]

end

theorem text_friend {position : Nat} (within : position ≤ maxArrayIndex) :
    Path.text [.key "friends", .index (Index.ofPosition position)] =
      "friends[" ++ Nat.repr position ++ "]" := by
  have small : position < 0x10000000000000000 := by
    unfold maxArrayIndex at within
    omega
  apply String.toList_inj.mp
  simp [Path.text, Path.letters, Token.letters, Token.continuation, Index.val_ofPosition small, Nat.repr]

theorem entries_described (person : Person) {friends : Option Node} (spelled : Bool)
    (inner : ∀ items ∈ friends, items ≠ .absent ∧ Node.Everywhere Node.Built items)
    {positions : List Nat} (within : ∀ position ∈ positions, position ≤ maxArrayIndex)
    (listed : friends.toList.flatMap Node.leaves = (positions.zip person.friends).map fun friend =>
      ([.index (Index.ofPosition friend.1)], .string friend.2)) :
    (person.described friends spelled).flatten.entries = person.entries positions spelled := by
  have built := built_described person friends spelled inner
  have named : (positions.zip person.friends).map (fun friend =>
      (Path.text [.key "friends", .index (Index.ofPosition friend.1)], Json.string friend.2)) =
        (positions.zip person.friends).map fun friend =>
          ("friends[" ++ Nat.repr friend.1 ++ "]", .string friend.2) := by
    apply List.map_congr_left
    intro friend member
    rw [text_friend (within friend.1 (List.of_mem_zip member).1)]
  rw [Node.entries_flatten_of_copyable (built.mono fun _ => And.left) (built.mono fun _ => And.right),
    leaves_described, listed, entries, ← named, List.map_append, List.map_append, List.map_cons,
    List.map_map, List.map_map, List.map_map]
  rfl

end DocPath.Person
