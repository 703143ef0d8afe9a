import DocPath.Proofs.Document.Projection
import DocPath.Proofs.Json.Reading

/-! Documents through text. A document without fractions is written in letters that are read back, so
parsing its text gives what JSON shows of it, as long as its containers do not go too deep. -/

namespace DocPath.Node

/-- A number that is kept exactly; every other node is fine. -/
def IntegerNumber : Node → Prop
  | .number (.float _) => False
  | _ => True

def nesting (document : Node) : Nat := document.fold Json.Algebra.nesting

theorem nesting_toJson (document : Node) : document.toJson.nesting = document.nesting :=
  fold_toJson Json.Algebra.nesting document

theorem legible_toJson {document : Node} (distinct : Everywhere DistinctNames document)
    (integers : Everywhere IntegerNumber document) : document.toJson.Legible := by
  induction document with
  | absent | null => rw [toJson]; exact .null
  | bool value => rw [toJson]; exact .bool value
  | number value =>
    cases value with
    | int value inRange => rw [toJson]; exact .int value inRange
    | float value => exact (integers _ .here).elim
  | string text => rw [toJson]; exact .string text
  | array items each =>
    have apart := (everywhere_array_iff.mp distinct).2
    have whole := (everywhere_array_iff.mp integers).2
    rw [toJson]
    refine .array (List.forall_mem_map.mpr fun item member => ?_)
    exact each item member (apart item member) (whole item member)
  | object fields each =>
    obtain ⟨names, apart⟩ := everywhere_object_iff.mp distinct
    have whole := (everywhere_object_iff.mp integers).2
    rw [toJson]
    refine .object ?_ (List.forall_mem_map.mpr fun field kept => ?_)
    · rw [Fields.names_map]
      exact Fields.nodup_names_filter names _
    · have member := (List.mem_filter.mp kept).1
      exact each field member (apart field member) (whole field member)

/-- The text of a document whose numbers are integers is read back as the document without its holes,
with the fields in their order, exactly if its containers are not nested deeper than a reader goes. -/
theorem text_reads_back {document : Node} (distinct : Everywhere DistinctNames document)
    (integers : Everywhere IntegerNumber document) :
    parse? document.text = if document.nesting ≤ 127 then some document.withoutHoles else none := by
  have written : document.text = document.toJson.text := by rw [text, Json.text, fold_toJson]
  have read := Json.parse?_text (legible_toJson distinct integers)
  rw [parse?, written, read, nesting_toJson]
  show Option.map collect (if document.nesting ≤ 127 then _ else _) = _
  split
  · exact congrArg some (collect_toJson distinct)
  · rfl

theorem text_reads_back_mixed :
    let document := object [
      ("\"\\\n", array [absent, number (.int (-9223372036854775808) (by decide)),
        number (.int 18446744073709551615 (by decide))]),
      ("gone", absent), ("", string "\x01é\\u0041")]
    parse? document.text = some (object [
      ("\"\\\n", array [null, number (.int (-9223372036854775808) (by decide)),
        number (.int 18446744073709551615 (by decide))]),
      ("", string "\x01é\\u0041")]) := by
  intro document
  have distinct : Everywhere DistinctNames document := by
    simp [document, everywhere_object_iff, everywhere_array_iff, everywhere_single_iff, isContainer,
      isArray, isObject, DistinctNames]
  have integers : Everywhere IntegerNumber document := by
    simp [document, everywhere_object_iff, everywhere_array_iff, everywhere_single_iff, isContainer,
      isArray, isObject, IntegerNumber]
  have flat : document.nesting ≤ 127 := by
    simp [document, nesting, fold, Json.Algebra.nesting, Json.deepest, isAbsent]
  rw [text_reads_back distinct integers, if_pos flat]
  simp [document, withoutHoles, isAbsent]

end DocPath.Node
