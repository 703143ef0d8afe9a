import DocPath.FlatMap
import DocPath.Path.Text

/-! Flattening. The leaves of a document are its scalars and nulls, each at its path; holes are no
leaves and an empty container has none. The flat map of a document lists the leaves in document
order under their written paths. -/

namespace DocPath.Node

/-- The leaves of a document in document order. -/
def leaves : Node → List (Path × Json)
  | .absent => []
  | .null => [([], .null)]
  | .bool value => [([], .bool value)]
  | .number value => [([], .number value)]
  | .string text => [([], .string text)]
  | .array items =>
      (items.map fun item => item.leaves).zipIdx.flatMap fun item =>
        item.1.map (Path.under (.index (Index.ofPosition item.2)))
  | .object fields =>
      (fields.map fun field => (field.1, field.2.leaves)).flatMap fun field =>
        field.2.map (Path.under (.key field.1))
termination_by node => node
decreasing_by
  · have := List.sizeOf_lt_of_mem ‹_›
    simp only [Node.array.sizeOf_spec]
    omega
  · have := Fields.sizeOf_snd_lt ‹_›
    simp only [Node.object.sizeOf_spec]
    omega

def flatten (document : Node) : FlatMap :=
  FlatMap.ofList (document.leaves.map fun leaf => (Path.text leaf.1, leaf.2))

end DocPath.Node
