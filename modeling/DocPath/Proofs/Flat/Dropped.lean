import DocPath.Proofs.Flat.Copy
import DocPath.Proofs.Flat.Holding

/-! What a copy drops. Copying writes the leaves of a document and nothing else, so exactly the
subtrees without a leaf are gone from the copy, and what is left is copied without a loss. Paths of
leaves never disagree about a kind; the only thing that can stop a copy is a leaf in an item beyond
the largest index. -/

namespace DocPath.Node

theorem agreeing_leaves {document : Node} (addressable : Everywhere Addressable document) :
    Path.Agreeing (document.leaves.map Prod.fst) := by
  apply agreeing_of_found
  intro path member none
  obtain ⟨leaf, inside, rfl⟩ := List.mem_map.mp member
  have found := (mem_leaves_iff addressable).mp inside
  rw [none] at found
  cases found

theorem copy_of_beyond {document : Node} (addressable : Everywhere Addressable document)
    (writable : Everywhere WritableNames document) {leaf : Path × Json}
    (member : leaf ∈ document.leaves) (beyond : ¬Path.WithinLimit leaf.1) (compact : Bool) :
    ∃ error, document.copy compact = .error error ∧ error.category = .indexRange := by
  have leafy := List.ne_nil_of_mem member
  have apart := pairwise_apart_leaves addressable
  rw [copy_eq_setAll addressable writable leafy]
  cases written : Node.absent.setAll document.leafWrites with
  | error error =>
    obtain ⟨category, -⟩ := holding_absent.setAll_error single_of_mem_leaves apart
      (agreeing_leaves addressable) written
    exact ⟨error, rfl, category⟩
  | ok last =>
    obtain ⟨-, built⟩ :=
      built_of_entries leafy (writable_leaves writable) single_of_mem_leaves written
    have holding := holding_absent.setAll single_of_mem_leaves apart written
    exact absurd (holding.withinLimit built leaf member) beyond

/-- Copying a document whose keys can be written fails exactly where some item beyond the largest index
has a leaf in it, and then for an index out of range. Otherwise the copy is the document without its
leafless subtrees, compacted if asked for; and a copy is copied as it is. -/
theorem copy_drops_leafless {document : Node} (addressable : Everywhere Addressable document)
    (writable : Everywhere WritableNames document) (compact : Bool) :
    ((∃ error, document.copy compact = .error error) ↔
      ∃ part, Occurs part document ∧ part.Overlong) ∧
    (∀ error, document.copy compact = .error error → error.category = .indexRange) ∧
    ((¬∃ part, Occurs part document ∧ part.Overlong) →
      document.copy compact = .ok (if compact then document.kept.compact else document.kept)) ∧
    ∀ result, document.copy compact = .ok result → result.copy compact = .ok result := by
  have idempotent : ∀ result, document.copy compact = .ok result →
      result.copy compact = .ok result := by
    intro result copied
    obtain ⟨present, built⟩ := built_of_copy copied
    exact copy_of_copyable (built.mono fun _ => And.right) (built.mono fun _ => And.left) present
  have short : (∀ leaf ∈ document.leaves, Path.WithinLimit leaf.1) ↔
      ¬∃ part, Occurs part document ∧ part.Overlong := by
    rw [withinLimit_leaves_iff addressable]
    simp only [not_exists, not_and]
    rfl
  by_cases long : ∃ part, Occurs part document ∧ part.Overlong
  · obtain ⟨leaf, member, beyond⟩ : ∃ leaf ∈ document.leaves, ¬Path.WithinLimit leaf.1 := by
      simpa using fun limit => short.mp limit long
    obtain ⟨error, failed, category⟩ := copy_of_beyond addressable writable member beyond compact
    refine ⟨⟨fun _ => long, fun _ => ⟨error, failed⟩⟩, ?_, fun none => absurd long none, idempotent⟩
    intro other same
    cases failed.symm.trans same
    exact category
  · have copied := copy_of_withinLimit addressable writable (short.mpr long) compact
    have fine : ∀ error, document.copy compact ≠ .error error := by
      intro error failed
      cases copied.symm.trans failed
    refine ⟨⟨?_, fun some => absurd some long⟩, ?_, fun _ => copied, idempotent⟩
    · rintro ⟨error, failed⟩
      exact absurd failed (fine error)
    · exact fun error failed => absurd failed (fine error)

theorem copy_drops_leafless_mixed :
    let document := object [("a", array [bool true, array [absent], object [("x", object [])], null,
      object []]), ("b", array []), ("c", string "y")]
    let result := object [("a", array [bool true, absent, absent, null]), ("c", string "y")]
    let far := array (List.replicate (maxArrayIndex + 1) absent ++ [null])
    document.copy false = .ok result ∧ result.copy false = .ok result ∧
      document.copy true = .ok (object [("a", array [bool true, null]), ("c", string "y")]) ∧
      ∃ error, far.copy true = .error error ∧ error.category = .indexRange := by
  intro document result far
  have addressable : Everywhere Addressable document := by
    simp [document, everywhere_object_iff, everywhere_array_iff, everywhere_single_iff, isContainer,
      isArray, isObject, Addressable]
  have writable : Everywhere WritableNames document := by
    simp [document, everywhere_object_iff, everywhere_array_iff, everywhere_single_iff, isContainer,
      isArray, isObject, WritableNames, Token.Writable, Path.isDelimiter]
  have lengths : Everywhere (fun part => ∀ items, part = array items →
      items.length ≤ maxArrayIndex + 1) document := by
    simp [document, everywhere_object_iff, everywhere_array_iff, everywhere_single_iff, isContainer,
      isArray, isObject, maxArrayIndex]
  have short : ¬∃ part, Occurs part document ∧ part.Overlong := by
    rintro ⟨part, occurs, long⟩
    exact not_overlong_of_length (lengths part occurs) long
  have kept : document.kept = result := by
    simp only [document, Node.kept, pruned, List.map_cons, List.map_nil]
    rfl
  have everywhere : ∀ holds : Node → Prop, holds far → holds absent → holds null →
      Everywhere holds far := by
    intro holds here hole value
    refine everywhere_array_iff.mpr ⟨here, ?_⟩
    intro item member
    rcases List.mem_append.mp member with padding | last
    · rw [List.eq_of_mem_replicate padding]
      exact everywhere_absent hole
    · rw [List.mem_singleton.mp last]
      exact (everywhere_single_iff rfl).mpr value
  have length : far.Addressable := by
    show (List.replicate (maxArrayIndex + 1) absent ++ [null]).length ≤ _
    rw [List.length_append, List.length_replicate]
    decide
  have long : far.Overlong := by
    refine ⟨_, rfl, maxArrayIndex + 1, null, ?_, Nat.lt_succ_self _, null, .here, by simp [leaf?]⟩
    rw [List.getElem?_append_right (by simp), List.length_replicate, Nat.sub_self]
    rfl
  obtain ⟨-, -, made, again⟩ := copy_drops_leafless addressable writable false
  obtain ⟨-, -, packed, -⟩ := copy_drops_leafless addressable writable true
  obtain ⟨fails, range, -⟩ := copy_drops_leafless (everywhere Addressable length trivial trivial)
    (everywhere WritableNames trivial trivial trivial) true
  obtain ⟨error, failed⟩ := fails.mpr ⟨far, .here, long⟩
  have loose : document.copy false = .ok result := kept ▸ made short
  refine ⟨loose, again result loose, ?_, error, failed, range error failed⟩
  rw [packed short, kept]
  simp [result, Node.compact, isAbsent]

end DocPath.Node
