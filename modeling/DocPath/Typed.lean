import DocPath.Flat.Build

/-! Typed values as documents. A type that has a JSON form can be written into a document or a flat
map; a type that can be read from JSON can be read back, where holes are read as null inside arrays
and as missing fields inside objects. -/

namespace DocPath

/-- Values that have a JSON form. Some have none, such as maps whose keys are not text. -/
class Encode (α : Type) where
  encode : α → Except Error Json

class Decode (α : Type) where
  decode? : Json → Option α

class EncodeKey (α : Type) where
  text? : α → Option String

namespace Typed
variable {α : Type}

instance : Encode Json := ⟨.ok⟩
instance : Encode Node := ⟨fun node => .ok (node.fold Json.Algebra.copy)⟩
instance : Encode Bool := ⟨fun value => .ok (.bool value)⟩
instance : Encode Number := ⟨fun value => .ok (.number value)⟩
instance : Encode String := ⟨fun text => .ok (.string text)⟩
instance : Encode Char := ⟨fun letter => .ok (.string (String.singleton letter))⟩

instance : Encode Binary64 := ⟨fun value => .ok (.number (.float value))⟩

instance [Encode α] : Encode (Option α) where
  encode
    | some value => Encode.encode value
    | none => .ok .null

instance : EncodeKey String := ⟨some⟩
instance : EncodeKey Int := ⟨fun value => some (Int.repr value)⟩
instance {β : Type} : EncodeKey (α × β) := ⟨fun _ => none⟩

def encodeEntries {κ : Type} [EncodeKey κ] [Encode α] (entries : List (κ × α)) :
    Except Error Json := do
  let fields ← entries.mapM fun entry => do
    match EncodeKey.text? entry.1 with
    | some name => return (name, ← Encode.encode entry.2)
    | none => throw .keyNotText
  return .object (Fields.ofList fields)

instance : Decode Json := ⟨some⟩
instance : Decode Node := ⟨fun json => some (Node.collect json)⟩

instance : Decode String where
  decode?
    | .string text => some text
    | _ => none

instance [Decode α] : Decode (Option α) where
  decode?
    | .null => some none
    | json => (Decode.decode? json).map some

instance [Decode α] : Decode (List α) where
  decode?
    | .array items => items.mapM Decode.decode?
    | _ => none

/-- The values of the fields that make up a record, in the order of their names. An object gives
them by name, with other fields ignored, and an array by position. -/
def recordFields? (names : List String) : Json → Option (List (Option Json))
  | .object fields => some (names.map fun name => Fields.get? name fields)
  | .array items => if items.length = names.length then some (items.map some) else none
  | _ => none

def required? [Decode α] (field : Option Json) : Option α := field.bind Decode.decode?

def optional? [Decode α] (field : Option Json) : Option (Option α) :=
  match field with
  | none => some none
  | some json => Decode.decode? json

def toNode [Encode α] (value : α) : Except Error Node := do
  return Node.ofJson (← Encode.encode value)

def fromNode [Decode α] (document : Node) : Except Error α :=
  match Decode.decode? document.toJson with
  | some value => .ok value
  | none => .error .shapeMismatch

def toFlat [Encode α] (value : α) : Except Error FlatMap := do
  return (← toNode value).flatten

def fromFlat [Decode α] (flat : FlatMap) (compact : Bool) : Except Error α := do
  fromNode (← flat.build compact)

end Typed
end DocPath
