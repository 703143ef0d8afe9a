import DocPath.Proofs.Flat.Copy
import DocPath.Proofs.Flat.Order

/-! Nothing observes the order of fields. Documents that are equal up to it can be read, written,
compacted, flattened and copied alike: what is found is equal, writes stop at the same obstruction, and
whatever is made or left behind is equal again. -/

namespace DocPath.Node

def leafAt (document : Node) (path : Path) : Path × Json :=
  (path, ((document.get? path).bind leaf?).getD .null)

theorem leafAt_of_mem {document : Node} (addressable : Everywhere Addressable document) {path : Path}
    {value : Json} (member : (path, value) ∈ document.leaves) : document.leafAt path = (path, value) := by
  rw [leafAt, (mem_leaves_iff addressable).mp member]
  rfl

namespace Alike

variable {left right : Node}

theorem exists_occurs {part : Node} (occurs : Occurs part right) (alike : Alike left right) :
    ∃ twin, Occurs twin left ∧ Alike twin part := by
  induction occurs generalizing left with
  | here => exact ⟨left, .here, alike⟩
  | item member inside ih =>
    obtain ⟨items, same⟩ := alike.symm.exists_items
    subst same
    obtain ⟨position, found⟩ := List.mem_iff_getElem?.mp member
    obtain ⟨item, held, here⟩ := Option.Rel.exists_left (found ▸ alike_array_iff.mp alike position)
    obtain ⟨twin, below, equal⟩ := ih here
    exact ⟨twin, .item (List.mem_of_getElem? held) below, equal⟩
  | @field others field member inside ih =>
    obtain ⟨fields, same⟩ := alike.symm.exists_fields
    subst same
    obtain ⟨⟨-, names⟩, each⟩ := alike_object_iff.mp alike
    obtain ⟨value, held, here⟩ :=
      Option.Rel.exists_left (Fields.get?_of_mem names member ▸ each field.1)
    obtain ⟨twin, below, equal⟩ := ih here
    exact ⟨twin, .field (Fields.mem_of_get?_eq_some held) below, equal⟩

theorem everywhere {holds : Node → Prop} (kept : ∀ node other, Alike node other → holds node → holds other)
    (alike : Alike left right) (whole : Everywhere holds left) : Everywhere holds right := by
  intro part occurs
  obtain ⟨twin, inside, same⟩ := exists_occurs occurs alike
  exact kept twin part same (whole twin inside)

theorem addressable (alike : Alike left right) (addressable : left.Addressable) :
    right.Addressable := by
  cases right with
  | absent | null | bool | number | string => trivial
  | array others =>
    obtain ⟨items, same⟩ := alike.symm.exists_items
    subst same
    show others.length ≤ _
    rw [← alike.length_eq]
    exact addressable
  | object others =>
    obtain ⟨fields, same⟩ := alike.symm.exists_fields
    subst same
    exact (alike_object_iff.mp alike).1.2

theorem writableNames (alike : Alike left right) (writable : left.WritableNames) :
    right.WritableNames := by
  cases right with
  | absent | null | bool | number | string | array => trivial
  | object others =>
    obtain ⟨fields, same⟩ := alike.symm.exists_fields
    subst same
    obtain ⟨⟨-, names⟩, each⟩ := alike_object_iff.mp alike
    intro field member
    obtain ⟨value, held, -⟩ :=
      Option.Rel.exists_left (Fields.get?_of_mem names member ▸ each field.1)
    exact writable (field.1, value) (Fields.mem_of_get?_eq_some held)

/-- Values of leaves that are equal as documents. The two zeros are. -/
def SameValue (value other : Json) : Prop := Alike (ofJson value) (ofJson other)

theorem leaf? (alike : Alike left right) : Option.Rel SameValue left.leaf? right.leaf? := by
  have kinds := alike.kind_eq
  cases left with
  | absent | array | object =>
    cases right <;> cases kinds
    exact .none
  | null | bool | number | string =>
    cases right <;> cases kinds
    exact .some (by simpa [SameValue, ofJson] using alike)

theorem leaf?_get? (alike : Alike left right) (path : Path) :
    Option.Rel SameValue ((left.get? path).bind Node.leaf?) ((right.get? path).bind Node.leaf?) :=
  Option.Rel.bind (alike.get? path) fun _ _ => leaf?

section
variable (addressable : Everywhere Addressable left) (otherAddressable : Everywhere Addressable right)
include addressable otherAddressable

theorem exists_leaf (alike : Alike left right) {path : Path} {value : Json}
    (member : (path, value) ∈ left.leaves) :
    ∃ other, (path, other) ∈ right.leaves ∧ SameValue value other := by
  have found := (mem_leaves_iff addressable).mp member
  obtain ⟨other, held, same⟩ := Option.Rel.exists_right (found ▸ alike.leaf?_get? path)
  exact ⟨other, (mem_leaves_iff otherAddressable).mpr held, same⟩

theorem leaves_perm_leafAt (alike : Alike left right) :
    right.leaves.Perm (left.leaves.map fun leaf => right.leafAt leaf.1) := by
  have apart : (left.leaves.map fun leaf => right.leafAt leaf.1).Pairwise fun first second =>
      Path.Apart first.1 second.1 := List.pairwise_map.mpr (pairwise_apart_leaves addressable)
  apply (List.perm_ext_iff_of_nodup (Path.nodup_of_apart (pairwise_apart_leaves otherAddressable))
    (Path.nodup_of_apart apart)).mpr
  intro leaf
  rw [List.mem_map]
  constructor
  · intro member
    obtain ⟨value, held, -⟩ := alike.symm.exists_leaf otherAddressable addressable member
    exact ⟨(leaf.1, value), held, leafAt_of_mem otherAddressable member⟩
  · intro origin
    obtain ⟨before, held, same⟩ := origin
    obtain ⟨other, member, -⟩ := alike.exists_leaf addressable otherAddressable held
    rw [← same, leafAt_of_mem otherAddressable member]
    exact member

theorem exists_leaves_perm (alike : Alike left right) :
    ∃ twins, right.leaves.Perm twins ∧ List.Forall₂ (fun leaf twin : Path × Json =>
      leaf.1 = twin.1 ∧ SameValue leaf.2 twin.2) left.leaves twins := by
  refine ⟨_, alike.leaves_perm_leafAt addressable otherAddressable, ?_⟩
  rw [List.forall₂_map_right_iff, List.forall₂_same]
  intro leaf member
  obtain ⟨other, held, same⟩ := alike.exists_leaf addressable otherAddressable member
  rw [leafAt_of_mem otherAddressable held]
  exact ⟨rfl, same⟩

theorem leaves_eq_nil_iff (alike : Alike left right) : left.leaves = [] ↔ right.leaves = [] := by
  obtain ⟨twins, perm, each⟩ := alike.exists_leaves_perm addressable otherAddressable
  have lengths : left.leaves.length = right.leaves.length := each.length_eq.trans perm.length_eq.symm
  rw [← List.length_eq_zero_iff, ← List.length_eq_zero_iff, lengths]

theorem setAll_leafWrites (alike : Alike left right) :
    Option.Rel Alike (Node.absent.setAll left.leafWrites).toOption
      (Node.absent.setAll right.leafWrites).toOption := by
  obtain ⟨twins, perm, each⟩ := alike.exists_leaves_perm addressable otherAddressable
  have values : ∀ write ∈ twins.map asWrite, Everywhere DistinctNames write.2 := by
    intro write member
    obtain ⟨twin, inside, same⟩ := List.mem_map.mp member
    subst same
    have single := single_of_mem_leaves twin (perm.mem_iff.mpr inside)
    exact (built_of_not_container single).mono fun _ => And.right
  have apart := perm.pairwise (pairwise_apart_leaves otherAddressable) Path.Apart.symm
  have valueByValue : Option.Rel Alike (Node.absent.setAll left.leafWrites).toOption
      (Node.absent.setAll (twins.map asWrite)).toOption := by
    apply absent.setAll_forall₂
    rw [leafWrites, List.forall₂_map_left_iff, List.forall₂_map_right_iff]
    exact each
  have reordered : Option.Rel Alike (Node.absent.setAll (twins.map asWrite)).toOption
      (Node.absent.setAll right.leafWrites).toOption :=
    setAll_perm (perm.symm.map asWrite) values (List.pairwise_map.mpr apart) absent
  refine Option.Rel.trans_of_mem ?_ valueByValue reordered
  exact fun _ _ _ _ => trans

variable (writable : Everywhere WritableNames left) (otherWritable : Everywhere WritableNames right)
include writable otherWritable

theorem exists_flatten (alike : Alike left right) {name : String} {value : Json}
    (held : left.flatten.get? name = some value) :
    ∃ other, right.flatten.get? name = some other ∧ SameValue value other := by
  have entry := Fields.mem_of_get?_eq_some held
  rw [entries_flatten addressable writable] at entry
  obtain ⟨leaf, member, same⟩ := List.mem_map.mp entry
  cases same
  obtain ⟨other, otherMember, equal⟩ := alike.exists_leaf addressable otherAddressable member
  have readable := writable_leaves writable leaf member
  exact ⟨other, (get?_flatten otherAddressable otherWritable readable).mpr otherMember, equal⟩

theorem flatten (alike : Alike left right) (name : String) :
    Option.Rel SameValue (left.flatten.get? name) (right.flatten.get? name) := by
  refine Option.Rel.of_forth_back (fun value => ?_) (fun other found => ?_)
  · exact alike.exists_flatten addressable otherAddressable writable otherWritable
  · obtain ⟨value, held, -⟩ :=
      alike.symm.exists_flatten otherAddressable addressable otherWritable writable found
    exact ⟨value, held⟩

theorem copy (alike : Alike left right) (compact : Bool) :
    Option.Rel Alike (left.copy compact).toOption (right.copy compact).toOption := by
  by_cases leafless : left.leaves = []
  · have none := (alike.leaves_eq_nil_iff addressable otherAddressable).mp leafless
    have empty : left.flatten.entries = [] := by
      rw [entries_flatten addressable writable, leafless]
      rfl
    have otherEmpty : right.flatten.entries = [] := by
      rw [entries_flatten otherAddressable otherWritable, none]
      rfl
    rw [Node.copy, Node.copy, FlatMap.build_of_empty empty, FlatMap.build_of_empty otherEmpty]
    exact .some (refl ((everywhere_single_iff rfl).mpr trivial))
  · have leafy : right.leaves ≠ [] :=
      fun none => leafless ((alike.leaves_eq_nil_iff addressable otherAddressable).mpr none)
    rw [copy_eq_setAll addressable writable leafless, copy_eq_setAll otherAddressable otherWritable leafy,
      toOption_map, toOption_map]
    refine Option.Rel.map (alike.setAll_leafWrites addressable otherAddressable) fun first second same => ?_
    cases compact with
    | false => exact same
    | true => exact same.compact

end

theorem write (alike : Alike left right) {value : Node} (distinct : Everywhere DistinctNames value)
    (path : Path) :
    (left.write path value).obstruction = (right.write path value).obstruction ∧
      Alike (left.write path value).document (right.write path value).document :=
  alike.ground.writeBelow (refl distinct) path

theorem set_error_iff (alike : Alike left right) {value : Node} (distinct : Everywhere DistinctNames value)
    {path : Path} {error : Error} :
    left.set path value = .error error ↔ right.set path value = .error error := by
  rw [set_eq_error_iff, set_eq_error_iff, (alike.write distinct path).1]

end Alike

/-- Equality of documents that name each field once is reflexive, symmetric and transitive, and nothing
that is done with equal documents tells them apart. At every path both hold equal nodes or neither holds
one; every write stops with the same error in both or in neither and leaves equal documents; they are
compacted to equal ones; and where keys can be written, their flat maps hold equal values under the same
names and their copies are equal, or neither can be copied. -/
theorem equality_is_congruence :
    (∀ document, Everywhere DistinctNames document → document.same document = true) ∧
    (∀ left right, Everywhere DistinctNames left → Everywhere DistinctNames right →
      left.same right = true → right.same left = true) ∧
    (∀ left middle right, Everywhere DistinctNames left → Everywhere DistinctNames middle →
      Everywhere DistinctNames right → left.same middle = true → middle.same right = true →
      left.same right = true) ∧
    ∀ left right, Everywhere DistinctNames left → Everywhere DistinctNames right →
      left.same right = true →
      (∀ path, Option.Rel (fun found other => found.same other = true) (left.get? path)
        (right.get? path)) ∧
      (∀ path value, Everywhere DistinctNames value →
        (∀ error, left.set path value = .error error ↔ right.set path value = .error error) ∧
        (left.write path value).document.same (right.write path value).document = true) ∧
      left.compact.same right.compact = true ∧
      (Everywhere Addressable left → Everywhere WritableNames left →
        (∀ name, Option.Rel (fun value other => (ofJson value).same (ofJson other) = true)
          (left.flatten.get? name) (right.flatten.get? name)) ∧
        ∀ compact, ((∃ copy, left.copy compact = .ok copy) ↔ ∃ copy, right.copy compact = .ok copy) ∧
          ∀ one two, left.copy compact = .ok one → right.copy compact = .ok two →
            one.same two = true) := by
  refine ⟨fun document distinct => (Alike.refl distinct).same, ?_, ?_, ?_⟩
  · intro left right distinct otherDistinct equal
    exact (Alike.mk equal distinct otherDistinct).symm.same
  · intro left middle right first second third one two
    exact ((Alike.mk one first second).trans (Alike.mk two second third)).same
  · intro left right distinct otherDistinct equal
    have alike : Alike left right := ⟨equal, distinct, otherDistinct⟩
    refine ⟨fun path => ?_, fun path value inner => ?_, alike.compact.same, ?_⟩
    · exact Option.Rel.imp_of_mem (fun _ _ _ _ => Alike.same) (alike.get? path)
    · exact ⟨fun error => alike.set_error_iff inner, (alike.write inner path).2.same⟩
    · intro addressable writable
      have otherAddressable := alike.everywhere (fun _ _ => Alike.addressable) addressable
      have otherWritable := alike.everywhere (fun _ _ => Alike.writableNames) writable
      refine ⟨fun name => ?_, fun compact => ?_⟩
      · exact Option.Rel.imp_of_mem (fun _ _ _ _ => Alike.same)
          (alike.flatten addressable otherAddressable writable otherWritable name)
      · obtain ⟨finish, same⟩ := outcome_of_rel
          (alike.copy addressable otherAddressable writable otherWritable compact)
        exact ⟨finish, fun one two first second => (same one two first second).same⟩

theorem equality_is_congruence_reordered :
    let left := object [("a", array [absent, object [("p", number (.float (.zero false))), ("q", null)]]),
      ("b", bool true)]
    let right := object [("b", bool true),
      ("a", array [absent, object [("q", null), ("p", number (.float (.zero true)))]])]
    let path := [Token.key "a", .index 4, .index 1048577]
    (left.same right = true ∧ right.same left = true ∧ left ≠ right) ∧
      (∃ found other, left.get? [.key "a", .index 1] = some found ∧
        right.get? [.key "a", .index 1] = some other ∧ found.same other = true) ∧
      (right.set path null = .error (.indexBeyondLimit path 2 1048577) ∧
        (left.write path null).document.same (right.write path null).document = true) ∧
      left.compact.same right.compact = true ∧
      (∃ value other, left.flatten.get? "a[1].p" = some value ∧ right.flatten.get? "a[1].p" = some other ∧
        (ofJson value).same (ofJson other) = true) ∧
      ∃ copy, right.copy false = .ok copy ∧ left.same copy = true := by
  intro left right path
  have distinct : Everywhere DistinctNames left := by
    simp [left, everywhere_object_iff, everywhere_array_iff, everywhere_single_iff, isContainer, isArray,
      isObject, DistinctNames]
  have otherDistinct : Everywhere DistinctNames right := by
    simp [right, everywhere_object_iff, everywhere_array_iff, everywhere_single_iff, isContainer, isArray,
      isObject, DistinctNames]
  have copyable : Everywhere (Copyable false) left := by
    simp [left, everywhere_object_iff, everywhere_array_iff, everywhere_single_iff, isContainer, isArray,
      isObject, Copyable, maxArrayIndex, Token.Writable, Path.isDelimiter]
  have equal : left.same right = true := by decide +kernel
  have addressable := everywhere_addressable copyable distinct
  have writable : Everywhere WritableNames left := copyable.mono fun _ => Copyable.writableNames
  obtain ⟨-, symmetric, -, alike⟩ := equality_is_congruence
  obtain ⟨reads, writes, compacts, flat⟩ := alike left right distinct otherDistinct equal
  obtain ⟨flattens, copies⟩ := flat addressable writable
  have stopped : left.set path null = .error (.indexBeyondLimit path 2 1048577) := rfl
  have copied : left.copy false = .ok left := copy_of_copyable distinct copyable Node.noConfusion
  have single : (Path.text [.key "a", .index 1, .key "p"]) = "a[1].p" := by decide +kernel
  have listed : left.flatten.get? "a[1].p" = some (.number (.float (.zero false))) := by
    rw [← single, get?_flatten addressable writable (by decide), mem_leaves_iff addressable]
    rfl
  obtain ⟨other, found, same⟩ := Option.Rel.exists_right (reads [.key "a", .index 1])
  obtain ⟨value, held, like⟩ := Option.Rel.exists_right (listed ▸ flattens "a[1].p")
  obtain ⟨copy, again⟩ := (copies false).1.mp ⟨left, copied⟩
  obtain ⟨errors, leftBehind⟩ := writes path null ((everywhere_single_iff rfl).mpr trivial)
  exact ⟨⟨equal, symmetric left right distinct otherDistinct equal, by simp [left, right]⟩,
    ⟨_, other, rfl, found, same⟩, ⟨(errors _).mp stopped, leftBehind⟩, compacts,
    ⟨_, value, listed, held, like⟩, copy, again, (copies false).2 left copy copied again⟩

end DocPath.Node
