import DocPath.Proofs.Flat.Built
import DocPath.Proofs.Write.Commute

/-! The order of entries. Where the paths of a flat map lie apart, its entries may stand in any order:
it can be built in all of them or in none, and what is built is the same document. -/

namespace DocPath

theorem toOption_map {α β : Type} (change : α → β) (outcome : Except Error α) :
    (outcome.map change).toOption = outcome.toOption.map change := by
  cases outcome <;> rfl

namespace FlatMap

theorem locate_perm {entries others : List (String × Json)} (perm : entries.Perm others)
    {located : List (Path × Json)} (read : locate entries = .ok located) :
    ∃ again, locate others = .ok again ∧ located.Perm again := by
  induction perm generalizing located with
  | nil => exact ⟨located, read, List.Perm.refl located⟩
  | cons entry perm ih =>
    obtain ⟨path, parsed, rest, later, rfl⟩ := locate_cons_eq_ok_iff.mp read
    obtain ⟨again, readAgain, same⟩ := ih later
    exact ⟨_, locate_cons_eq_ok_iff.mpr ⟨path, parsed, again, readAgain, rfl⟩, same.cons _⟩
  | swap second first rest =>
    obtain ⟨path, parsed, more, later, rfl⟩ := locate_cons_eq_ok_iff.mp read
    obtain ⟨way, parsedWay, last, latest, rfl⟩ := locate_cons_eq_ok_iff.mp later
    have back := locate_cons_eq_ok_iff.mpr ⟨path, parsed, last, latest, rfl⟩
    exact ⟨_, locate_cons_eq_ok_iff.mpr ⟨way, parsedWay, _, back, rfl⟩, List.Perm.swap _ _ _⟩
  | trans perm permAfter ih ihAfter =>
    obtain ⟨between, readBetween, one⟩ := ih read
    obtain ⟨again, readAgain, two⟩ := ihAfter readBetween
    exact ⟨again, readAgain, one.trans two⟩

theorem build_perm {flat other : FlatMap} {entries : List (Path × Json)}
    (read : locate flat.entries = .ok entries)
    (distinct : ∀ entry ∈ flat.entries, Node.Everywhere Node.DistinctNames (Node.ofJson entry.2))
    (apart : entries.Pairwise fun first second => Path.Apart first.1 second.1)
    (perm : flat.entries.Perm other.entries) (compact : Bool) :
    Option.Rel Node.Alike (flat.build compact).toOption (other.build compact).toOption := by
  by_cases empty : flat.entries = []
  · have emptyOther : other.entries = [] := List.nil_perm.mp (empty ▸ perm)
    rw [build_of_empty empty, build_of_empty emptyOther]
    exact .some (Node.Alike.refl ((Node.everywhere_single_iff rfl).mpr trivial))
  · have nonempty : other.entries ≠ [] := fun none => empty (List.perm_nil.mp (none ▸ perm))
    obtain ⟨others, readOther, same⟩ := locate_perm perm read
    have values : ∀ write ∈ entries.map Node.asWrite, Node.Everywhere Node.DistinctNames write.2 := by
      intro write member
      obtain ⟨entry, inside, rfl⟩ := List.mem_map.mp member
      obtain ⟨-, name, named⟩ := Node.locate_sound read entry inside
      exact distinct _ named
    have written := Node.setAll_perm (same.map Node.asWrite) values (List.pairwise_map.mpr apart)
      Node.Alike.absent
    rw [build_of_located read empty, build_of_located readOther nonempty, toOption_map, toOption_map]
    refine Option.Rel.map written ?_
    intro one two alike
    cases compact with
    | false => exact alike
    | true => exact alike.compact

end FlatMap

namespace Node

/-- Writes at paths that lie apart can be made in any order: they finish in all orders or in none,
and what they make is equal up to the order of fields, compacted or not. So a flat map with such
paths describes one document, however its entries are ordered. -/
theorem independent_writes_commute :
    (∀ (start : Option Node) (writes others : List (Path × Node)),
      (∀ document ∈ start, Everywhere DistinctNames document) →
      (∀ write ∈ writes, Everywhere DistinctNames write.2) →
      (writes.Pairwise fun first second => Path.Apart first.1 second.1) → writes.Perm others →
      ((∃ document, (start.getD .absent).setAll writes = .ok document) ↔
        ∃ document, (start.getD .absent).setAll others = .ok document) ∧
      ∀ one two, (start.getD .absent).setAll writes = .ok one →
        (start.getD .absent).setAll others = .ok two →
        one.same two = true ∧ one.compact.same two.compact = true) ∧
    ∀ (flat other : FlatMap) (entries : List (Path × Json)),
      FlatMap.locate flat.entries = .ok entries →
      (∀ entry ∈ flat.entries, Everywhere DistinctNames (ofJson entry.2)) →
      (entries.Pairwise fun first second => Path.Apart first.1 second.1) →
      flat.entries.Perm other.entries → ∀ compact,
      ((∃ document, flat.build compact = .ok document) ↔
        ∃ document, other.build compact = .ok document) ∧
      ∀ one two, flat.build compact = .ok one → other.build compact = .ok two →
        one.same two = true := by
  constructor
  · intro start writes others distinct values apart perm
    have begun : Everywhere DistinctNames (start.getD .absent) := by
      cases start with
      | none => exact everywhere_absent trivial
      | some document => exact distinct document rfl
    obtain ⟨finish, equal⟩ := outcome_of_rel (setAll_perm perm values apart (Alike.refl begun))
    refine ⟨finish, ?_⟩
    intro one two first second
    have alike := equal one two first second
    exact ⟨alike.same, alike.compact.same⟩
  · intro flat other entries read values apart perm compact
    obtain ⟨finish, equal⟩ := outcome_of_rel (FlatMap.build_perm read values apart perm compact)
    exact ⟨finish, fun one two first second => (equal one two first second).same⟩

theorem independent_writes_commute_sparse :
    let flat := FlatMap.ofList [("b", .string "x"), ("a[2]", .bool true), ("a[1].k", .null)]
    let other := FlatMap.ofList [("a[1].k", .null), ("a[2]", .bool true), ("b", .string "x")]
    let writes := [([Token.key "b"], string "x"), ([.key "a", .index 2], bool true),
      ([.key "a", .index 1, .key "k"], null)]
    let others := [([Token.key "a", .index 1, .key "k"], null), ([.key "a", .index 2], bool true),
      ([.key "b"], string "x")]
    let one := object [("b", string "x"), ("a", array [absent, object [("k", null)], bool true])]
    let two := object [("a", array [absent, object [("k", null)], bool true]), ("b", string "x")]
    absent.setAll writes = .ok one ∧ absent.setAll others = .ok two ∧ one.same two = true ∧
      one.compact.same two.compact = true ∧ flat.build false = .ok one ∧
      ∃ document, other.build false = .ok document ∧ one.same document = true := by
  intro flat other writes others one two
  have values : ∀ write ∈ writes, Everywhere DistinctNames write.2 := by
    simp [writes, everywhere_single_iff, isContainer, isArray, isObject, DistinctNames]
  have named : ∀ entry ∈ flat.entries, Everywhere DistinctNames (ofJson entry.2) := by
    simp [flat, FlatMap.ofList, FlatMap.insert, Fields.put, FlatMap.empty, ofJson,
      everywhere_single_iff, isContainer, isArray, isObject, DistinctNames]
  have perm : writes.Perm others := (List.reverse_perm writes).symm
  have entriesPerm : flat.entries.Perm other.entries := (List.reverse_perm flat.entries).symm
  have first : absent.setAll writes = .ok one := rfl
  have second : absent.setAll others = .ok two := rfl
  have read : FlatMap.locate flat.entries = .ok [([.key "b"], .string "x"),
      ([.key "a", .index 2], .bool true), ([.key "a", .index 1, .key "k"], .null)] := rfl
  have built : flat.build false = .ok one := by
    apply (FlatMap.build_eq_ok_iff_of_located read (List.cons_ne_nil _ _)).mpr
    refine ⟨one, ?_, rfl⟩
    simp only [List.map_cons, List.map_nil, asWrite, ofJson]
    rfl
  obtain ⟨-, equal⟩ := independent_writes_commute.1 none writes others (by simp) values (by decide) perm
  obtain ⟨finish, same⟩ :=
    independent_writes_commute.2 flat other _ read named (by decide) entriesPerm false
  obtain ⟨document, builtOther⟩ := finish.mp ⟨one, built⟩
  obtain ⟨alike, compacted⟩ := equal one two first second
  exact ⟨first, second, alike, compacted, built, document, builtOther, same one document built builtOther⟩

end Node
end DocPath
