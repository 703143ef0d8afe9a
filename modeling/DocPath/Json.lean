import DocPath.Fields
import DocPath.Number

/-! JSON values. A function that treats every kind of value in one way is a fold with an algebra;
writing a value as text and copying it are both such folds. -/

namespace DocPath
universe u

inductive Json where
  | null
  | bool (value : Bool)
  | number (value : Number)
  | string (text : String)
  | array (items : List Json)
  | object (fields : List (String × Json))
deriving Inhabited

namespace Json

/-- What to make of each kind of value once the parts are done. For an object it is announced how many
fields there are going to be. -/
structure Algebra (α : Type u) where
  null : α
  bool : Bool → α
  number : Number → α
  string : String → α
  array : List α → α
  object : Nat → List (String × α) → α

def Algebra.copy : Algebra Json := ⟨.null, .bool, .number, .string, .array, fun _ => .object⟩

def fold {α : Type u} (algebra : Algebra α) : Json → α
  | .null => algebra.null
  | .bool value => algebra.bool value
  | .number value => algebra.number value
  | .string text => algebra.string text
  | .array items => algebra.array (items.map fun item => item.fold algebra)
  | .object fields =>
      algebra.object fields.length (fields.map fun field => (field.1, field.2.fold algebra))
termination_by json => json
decreasing_by
  · have := List.sizeOf_lt_of_mem ‹_›
    simp only [Json.array.sizeOf_spec]
    omega
  · have := Fields.sizeOf_snd_lt ‹_›
    simp only [Json.object.sizeOf_spec]
    omega

@[induction_eliminator] theorem induction {motive : Json → Prop} (null : motive .null)
    (bool : ∀ value, motive (.bool value)) (number : ∀ value, motive (.number value))
    (string : ∀ text, motive (.string text))
    (array : ∀ items, (∀ item ∈ items, motive item) → motive (.array items))
    (object : ∀ fields, (∀ field ∈ fields, motive field.2) → motive (.object fields))
    (json : Json) : motive json := by
  match json with
  | .null => exact null
  | .bool value => exact bool value
  | .number value => exact number value
  | .string text => exact string text
  | .array items =>
    exact array items fun item _ => induction null bool number string array object item
  | .object fields =>
    exact object fields fun field _ => induction null bool number string array object field.2
termination_by json
decreasing_by
  · have := List.sizeOf_lt_of_mem ‹_›
    simp only [Json.array.sizeOf_spec]
    omega
  · have := Fields.sizeOf_snd_lt ‹_›
    simp only [Json.object.sizeOf_spec]
    omega

theorem fold_copy (json : Json) : json.fold Algebra.copy = json := by
  induction json with
  | null | bool | number | string => rw [fold]; rfl
  | array items each =>
    rw [fold]
    exact congrArg Json.array (by simpa using List.map_congr_left each)
  | object fields each =>
    rw [fold]
    have unchanged : fields.map (fun field => (field.1, field.2.fold Algebra.copy)) =
        fields.map id := List.map_congr_left fun field member => by rw [each field member]; rfl
    exact congrArg Json.object (by simpa using unchanged)

end Json
end DocPath
