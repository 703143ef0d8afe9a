import DocPath.Fields
import DocPath.Kind
import DocPath.Number

/-! Document trees. A tree is a JSON value that may also hold `absent`: a slot that was never
written, such as a hole that a write past the end of an array leaves behind. A hole is no value,
so reading finds nothing there. -/

namespace DocPath

inductive Node where
  | absent
  | null
  | bool (value : Bool)
  | number (value : Number)
  | string (text : String)
  | array (items : List Node)
  | object (fields : List (String × Node))

namespace Node

instance : Inhabited Node := ⟨.null⟩

def kind : Node → Kind
  | .absent => .absent
  | .null => .null
  | .bool _ => .boolean
  | .number _ => .number
  | .string _ => .string
  | .array _ => .array
  | .object _ => .object

def isAbsent : Node → Bool
  | .absent => true
  | _ => false

def isNull : Node → Bool
  | .null => true
  | _ => false

/-- Nothing here for a writer: a hole or null. -/
def isNullish (node : Node) : Bool := node.isAbsent || node.isNull

def isArray : Node → Bool
  | .array _ => true
  | _ => false

def isObject : Node → Bool
  | .object _ => true
  | _ => false

def isContainer (node : Node) : Bool := node.isArray || node.isObject

def isScalar : Node → Bool
  | .bool _ | .number _ | .string _ => true
  | _ => false

def bool? : Node → Option Bool
  | .bool value => some value
  | _ => none

def number? : Node → Option Number
  | .number value => some value
  | _ => none

def string? : Node → Option String
  | .string text => some text
  | _ => none

def items? : Node → Option (List Node)
  | .array items => some items
  | _ => none

def fields? : Node → Option (List (String × Node))
  | .object fields => some fields
  | _ => none

@[induction_eliminator] theorem induction {motive : Node → Prop} (absent : motive .absent)
    (null : motive .null) (bool : ∀ value, motive (.bool value))
    (number : ∀ value, motive (.number value)) (string : ∀ text, motive (.string text))
    (array : ∀ items, (∀ item ∈ items, motive item) → motive (.array items))
    (object : ∀ fields, (∀ field ∈ fields, motive field.2) → motive (.object fields))
    (node : Node) : motive node := by
  match node with
  | .absent => exact absent
  | .null => exact null
  | .bool value => exact bool value
  | .number value => exact number value
  | .string text => exact string text
  | .array items =>
    exact array items fun item _ => induction absent null bool number string array object item
  | .object fields =>
    exact object fields fun field _ =>
      induction absent null bool number string array object field.2
termination_by node
decreasing_by
  · have := List.sizeOf_lt_of_mem ‹_›
    simp only [Node.array.sizeOf_spec]
    omega
  · have := Fields.sizeOf_snd_lt ‹_›
    simp only [Node.object.sizeOf_spec]
    omega

@[simp] theorem isAbsent_iff {node : Node} : node.isAbsent = true ↔ node = .absent := by
  cases node <;> simp [isAbsent]

theorem not_isAbsent_iff {node : Node} : (!node.isAbsent) = true ↔ node ≠ .absent := by
  cases node <;> simp [isAbsent]

end Node
end DocPath
