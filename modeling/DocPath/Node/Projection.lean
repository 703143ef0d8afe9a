import DocPath.Json.Reader
import DocPath.Json.Text
import DocPath.Node

/-! Documents and JSON. A hole has no JSON form: it becomes null where a value must stand, and a
field that holds nothing is left out. Text is written straight from the document. -/

namespace DocPath.Node
universe u

def toJson : Node → Json
  | .absent | .null => .null
  | .bool value => .bool value
  | .number value => .number value
  | .string text => .string text
  | .array items => .array (items.map fun item => item.toJson)
  | .object fields =>
      .object ((fields.filter fun field => !field.2.isAbsent).map fun field =>
        (field.1, field.2.toJson))
termination_by node => node
decreasing_by
  · have := List.sizeOf_lt_of_mem ‹_›
    simp only [Node.array.sizeOf_spec]
    omega
  · have := Fields.sizeOf_snd_lt ‹_›
    simp only [Node.object.sizeOf_spec]
    omega

def ofJson : Json → Node
  | .null => .null
  | .bool value => .bool value
  | .number value => .number value
  | .string text => .string text
  | .array items => .array (items.map fun item => ofJson item)
  | .object fields => .object (fields.map fun field => (field.1, ofJson field.2))
termination_by json => json
decreasing_by
  · have := List.sizeOf_lt_of_mem ‹_›
    simp only [Json.array.sizeOf_spec]
    omega
  · have := Fields.sizeOf_snd_lt ‹_›
    simp only [Json.object.sizeOf_spec]
    omega

/-- How many fields are going to be written. -/
def announced (fields : List (String × Node)) : Nat :=
  (fields.map Prod.snd).countP fun value => !value.isAbsent

/-- Writes a document with an algebra for JSON values: holes are written as null, and fields that
hold nothing are passed over. The fields that are left are counted before they are written. -/
def fold {α : Type u} (algebra : Json.Algebra α) : Node → α
  | .absent | .null => algebra.null
  | .bool value => algebra.bool value
  | .number value => algebra.number value
  | .string text => algebra.string text
  | .array items => algebra.array (items.map fun item => item.fold algebra)
  | .object fields =>
      algebra.object (announced fields)
        ((fields.filter fun field => !field.2.isAbsent).map fun field =>
          (field.1, field.2.fold algebra))
termination_by node => node
decreasing_by
  · have := List.sizeOf_lt_of_mem ‹_›
    simp only [Node.array.sizeOf_spec]
    omega
  · have := Fields.sizeOf_snd_lt ‹_›
    simp only [Node.object.sizeOf_spec]
    omega

def text (node : Node) : String := String.ofList (node.fold Json.compactLayout)

def indentedText? (width : Nat) (node : Node) : Option String :=
  Json.layOut? width fun algebra => node.fold algebra

theorem indentedText?_eq_none_iff {width : Nat} {node : Node} :
    node.indentedText? width = none ↔ Json.widestIndentation < width :=
  Json.layOut?_eq_none_iff

/-- Puts a document together from the parts of a JSON value as they come: fields are inserted one after
another, so a name that comes again keeps its place and takes the later value. -/
def collecting : Json.Algebra Node where
  null := .null
  bool := .bool
  number := .number
  string := .string
  array := .array
  object _ fields := .object (Fields.ofList fields)

def collect (json : Json) : Node := json.fold collecting

def parse? (text : String) : Option Node := (Json.parse? text).map collect

/-- As many fields are written as were announced. -/
theorem announced_eq (fields : List (String × Node)) :
    announced fields = (fields.filter fun field => !field.2.isAbsent).length := by
  rw [announced, List.countP_map, List.countP_eq_length_filter]
  rfl

theorem fold_toJson {α : Type u} (algebra : Json.Algebra α) (node : Node) :
    node.toJson.fold algebra = node.fold algebra := by
  induction node with
  | absent | null | bool | number | string => simp [toJson, fold, Json.fold]
  | array items each =>
    rw [toJson, fold, Json.fold, List.map_map]
    exact congrArg algebra.array (List.map_congr_left each)
  | object fields each =>
    rw [toJson, fold, Json.fold, List.map_map, List.length_map, announced_eq]
    exact congrArg (algebra.object _) (List.map_congr_left fun field member => by
      rw [Function.comp_apply, each field (List.mem_filter.mp member).1])

theorem ofJson_ne_absent (json : Json) : ofJson json ≠ .absent := by
  cases json <;> simp [ofJson]

end DocPath.Node
