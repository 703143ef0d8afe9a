import DocPath.Node

/-! Compaction takes every hole out of every array and keeps the order of the other items. The
fields of objects all stay, also those that hold nothing. -/

namespace DocPath.Node

def compact : Node → Node
  | .array items => .array ((items.filter fun item => !item.isAbsent).map fun item => item.compact)
  | .object fields => .object (fields.map fun field => (field.1, field.2.compact))
  | other => other
termination_by node => node
decreasing_by
  · have := List.sizeOf_lt_of_mem ‹_›
    simp only [Node.array.sizeOf_spec]
    omega
  · have := Fields.sizeOf_snd_lt ‹_›
    simp only [Node.object.sizeOf_spec]
    omega

theorem compact_of_not_container {node : Node} (single : node.isContainer = false) :
    node.compact = node := by
  cases node with
  | absent | null | bool | number | string => simp [compact]
  | array | object => cases single

theorem filter_of_dense {items : List Node} (whole : .absent ∉ items) :
    (items.filter fun item => !item.isAbsent) = items := by
  apply List.filter_eq_self.mpr
  intro item member
  rw [not_isAbsent_iff]
  exact fun hole => whole (hole ▸ member)

theorem filter_present {fields : List (String × Node)} (present : ∀ field ∈ fields, field.2 ≠ .absent) :
    (fields.filter fun field => !field.2.isAbsent) = fields := by
  refine List.filter_eq_self.mpr fun field member => ?_
  rw [not_isAbsent_iff]
  exact present field member

@[simp] theorem isAbsent_compact (node : Node) : node.compact.isAbsent = node.isAbsent := by
  cases node <;> simp [compact, isAbsent]

end DocPath.Node
