import DocPath.Proofs.Flat.Compacted
import DocPath.Proofs.Flat.Holding

/-! Building and flattening back. Where paths lie apart, nothing of a flat map is lost and nothing is
added: the leaves of the built document are its entries. Compaction renumbers each index by its rank
among the indexes that follow the same front. -/

namespace DocPath

namespace Path

/-- How many smaller indexes follow a front in the paths. -/
def rank (paths : List Path) (front : Path) (position : Nat) : Nat :=
  (List.range position).countP fun smaller =>
    decide (∃ path ∈ paths, front ++ [.index (Index.ofPosition smaller)] <+: path)

theorem rank_le (paths : List Path) (front : Path) (position : Nat) :
    rank paths front position ≤ position := by
  have bound := List.countP_le_length (l := List.range position) (p := fun smaller =>
    decide (∃ path ∈ paths, front ++ [.index (Index.ofPosition smaller)] <+: path))
  rw [List.length_range] at bound
  exact bound

def ranked (paths : List Path) (front : Path) : Token → Token
  | .key name => .key name
  | .index position => .index
      ⟨rank paths front position, Nat.lt_of_le_of_lt (rank_le paths front position) position.isLt⟩

/-- A path behind a front, each index replaced by its rank behind the tokens before it. -/
def renumbered (paths : List Path) : Path → Path → Path
  | _, [] => []
  | front, token :: rest => ranked paths front token :: renumbered paths (front ++ [token]) rest

end Path

namespace Node.Holding

variable {entries : List (Path × Json)} {document : Node}

theorem slot_ne_absent_iff (holding : Holding entries document) {front : Path} {container : Node}
    (held : document.get? front = some container) (token : Token) :
    container.slot token ≠ .absent ↔ ∃ path ∈ entries.map Prod.fst, front ++ [token] <+: path := by
  have below : document.get? (front ++ [token]) = (container.slot token).present? := by
    rw [get?_append, held, Option.bind_some, get?_cons_eq, get?_nil]
  constructor
  · intro present
    obtain ⟨entry, member, leads⟩ := holding.only (front ++ [token]) (by
      rw [below, present?_of_ne_absent present]
      exact Option.some_ne_none _)
    exact ⟨entry.1, List.mem_map_of_mem member, leads⟩
  · intro leads
    obtain ⟨path, member, back, split⟩ := leads
    obtain ⟨entry, inside, same⟩ := List.mem_map.mp member
    obtain ⟨leaf, found, -⟩ := holding.get?_eq_some inside
    rw [same, ← split, List.append_assoc] at found
    obtain ⟨again, place, -, present⟩ := container_of_get? found
    cases held.symm.trans place
    exact present

theorem moved_eq_ranked (holding : Holding entries document) {front : Path} {container : Node}
    (held : document.get? front = some container) {token : Token}
    (fit : container.fits token = true) :
    container.moved token = Path.ranked (entries.map Prod.fst) front token := by
  rcases fits_iff.mp fit with ⟨fields, name, rfl, rfl⟩ | ⟨items, position, rfl, rfl⟩
  · rfl
  · have counted : ahead items position.val =
        Path.rank (entries.map Prod.fst) front position.val := by
      rw [ahead_eq_countP_range, Path.rank]
      apply List.countP_congr
      intro smaller member
      have value := Index.val_ofPosition (Nat.lt_trans (List.mem_range.mp member) position.isLt)
      have named := holding.slot_ne_absent_iff held (.index (Index.ofPosition smaller))
      have slot : (array items).slot (.index (Index.ofPosition smaller)) =
          items[smaller]?.getD .absent := by
        show items[(Index.ofPosition smaller).val]?.getD .absent = _
        rw [value]
      rw [slot] at named
      rw [decide_eq_true_iff, ← named, not_isAbsent_iff]
    have bound := Nat.lt_of_le_of_lt
      (Path.rank_le (entries.map Prod.fst) front position.val) position.isLt
    show Token.index (Index.ofPosition (ahead items position.val)) = _
    rw [counted]
    exact congrArg Token.index (Fin.ext (Index.val_ofPosition bound))

theorem packed_eq_renumbered (holding : Holding entries document) {front back : Path}
    {node leaf : Node} (above : document.get? front = some node) (held : node.get? back = some leaf) :
    packed back node = Path.renumbered (entries.map Prod.fst) front back := by
  induction back generalizing front node with
  | nil => rfl
  | cons token rest ih =>
    have split : node.get? ([] ++ token :: rest) = some leaf := held
    obtain ⟨container, here, fit, present⟩ := container_of_get? split
    obtain ⟨-, rfl⟩ := present?_eq_some_iff.mp here
    have next : document.get? (front ++ [token]) = some (node.slot token) := by
      rw [get?_append, above, Option.bind_some, get?_cons_eq, get?_nil,
        present?_of_ne_absent present]
    rw [get?_cons_eq] at held
    rw [packed, Path.renumbered, holding.moved_eq_ranked above fit, ih next held]

theorem leaves_compact_perm (holding : Holding entries document)
    (addressable : Everywhere Addressable document)
    (apart : entries.Pairwise fun first second => Path.Apart first.1 second.1) :
    document.compact.leaves.Perm (entries.map fun entry =>
      (Path.renumbered (entries.map Prod.fst) [] entry.1, entry.2)) := by
  rw [leaves_compact addressable]
  apply ((holding.leaves_perm addressable apart).map _).trans
  apply List.Perm.of_eq
  apply List.map_congr_left
  intro entry member
  obtain ⟨leaf, held, -⟩ := holding.get?_eq_some member
  have root : document.get? [] = some document := by
    rw [get?_nil, present?_of_ne_absent (ne_absent_of_get? held)]
  rw [holding.packed_eq_renumbered root held]

end Node.Holding

namespace FlatMap

variable {flat : FlatMap} {entries : List (Path × Json)}

/-- A flat map of leaves at paths that lie apart can be built exactly if the paths agree about kinds
and stay within the index limit. Flattening what was built gives its entries back; flattening the
compacted one gives them with each index replaced by its rank. -/
theorem build_of_apart (read : locate flat.entries = .ok entries) (nonempty : flat.entries ≠ [])
    (single : ∀ entry ∈ flat.entries, (Node.ofJson entry.2).isContainer = false)
    (apart : entries.Pairwise fun first second => Path.Apart first.1 second.1) :
    ((∃ document, flat.build false = .ok document) ↔
      Path.Agreeing (entries.map Prod.fst) ∧ ∀ entry ∈ entries, Path.WithinLimit entry.1) ∧
    ∀ document, flat.build false = .ok document →
      document.flatten.entries.Perm (entries.map fun entry => (Path.text entry.1, entry.2)) ∧
      ∃ compacted, flat.build true = .ok compacted ∧
        compacted.flatten.entries.Perm (entries.map fun entry =>
          (Path.text (Path.renumbered (entries.map Prod.fst) [] entry.1), entry.2)) := by
  have sound := Node.locate_sound read
  have leaf : ∀ entry ∈ entries, (Node.ofJson entry.2).isContainer = false := by
    intro entry member
    obtain ⟨-, name, named⟩ := sound entry member
    exact single _ named
  have states : ∀ last, Node.absent.setAll (entries.map Node.asWrite) = .ok last →
      Node.Holding entries last ∧ Node.Everywhere Node.Built last := by
    intro last written
    exact ⟨Node.holding_absent.setAll leaf apart written,
      (Node.built_of_entries (Node.located_ne_nil read nonempty)
        (fun entry member => (sound entry member).1) leaf written).2⟩
  refine ⟨⟨?_, ?_⟩, ?_⟩
  · intro built
    obtain ⟨document, built⟩ := built
    obtain ⟨last, written, -⟩ := (build_eq_ok_iff_of_located read nonempty).mp built
    obtain ⟨holding, whole⟩ := states last written
    exact ⟨holding.agreeing, holding.withinLimit whole⟩
  · intro conditions
    obtain ⟨agreeing, limit⟩ := conditions
    obtain ⟨last, written⟩ := Node.holding_absent.exists_setAll leaf apart agreeing limit
    exact ⟨last, (build_eq_ok_iff_of_located read nonempty).mpr ⟨last, written, rfl⟩⟩
  · intro document built
    obtain ⟨last, written, same⟩ := (build_eq_ok_iff_of_located read nonempty).mp built
    obtain rfl : last = document := same
    obtain ⟨holding, whole⟩ := states last written
    have copyable : Node.Everywhere (Node.Copyable false) last := whole.mono fun _ => And.left
    have distinct : Node.Everywhere Node.DistinctNames last := whole.mono fun _ => And.right
    have addressable := Node.everywhere_addressable copyable distinct
    refine ⟨?_, last.compact, (build_eq_ok_iff_of_located read nonempty).mpr ⟨last, written, rfl⟩, ?_⟩
    · rw [Node.entries_flatten_of_copyable copyable distinct]
      exact (holding.leaves_perm addressable apart).map _
    · rw [Node.entries_flatten_of_copyable
        (Node.everywhere_compact (fun _ => Node.copyable_compact) copyable)
        (Node.everywhere_compact (fun _ => Node.distinctNames_compact) distinct)]
      have moved := (holding.leaves_compact_perm addressable apart).map
        fun leaf => (Path.text leaf.1, leaf.2)
      rw [List.map_map] at moved
      exact moved

theorem build_of_sparse_indexes :
    let flat := ofList [("a[3]", .bool true), ("a[1][2]", .null), ("b.c", .string "x")]
    let document := Node.object [
      ("a", .array [.absent, .array [.absent, .absent, .null], .absent, .bool true]),
      ("b", .object [("c", .string "x")])]
    flat.build false = .ok document ∧ document.flatten.entries.Perm flat.entries ∧
      ∃ compacted, flat.build true = .ok compacted ∧ compacted.flatten.entries.Perm
        [("a[1]", .bool true), ("a[0][0]", .null), ("b.c", .string "x")] := by
  intro flat document
  have read : locate flat.entries = .ok [([.key "a", .index 3], .bool true),
      ([.key "a", .index 1, .index 2], .null), ([.key "b", .key "c"], .string "x")] := rfl
  have built : flat.build false = .ok document := by
    apply (build_eq_ok_iff_of_located read (List.cons_ne_nil _ _)).mpr
    refine ⟨document, ?_, rfl⟩
    simp only [List.map_cons, List.map_nil, Node.asWrite, Node.ofJson]
    rfl
  have single : ∀ entry ∈ flat.entries, (Node.ofJson entry.2).isContainer = false := by
    simp [flat, ofList, insert, Fields.put, empty, Node.ofJson, Node.isContainer, Node.isArray,
      Node.isObject]
  obtain ⟨-, back⟩ := build_of_apart read (List.cons_ne_nil _ _) single (by decide)
  obtain ⟨same, compacted, compactBuilt, renumbered⟩ := back document built
  exact ⟨built, same, compacted, compactBuilt, renumbered⟩

end FlatMap
end DocPath
