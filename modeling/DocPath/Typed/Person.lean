import DocPath.Typed

/-! A person with a name, friends and an age: a record with nested parts, an optional field and a
list, written and read as JSON. -/

namespace DocPath

structure PersonName where
  first : String
  last : Option String
deriving DecidableEq

structure Person where
  name : PersonName
  friends : List String
  age : Fin 0x100000000
deriving DecidableEq

namespace Person

def encodeName (name : PersonName) : Json :=
  .object [("first", .string name.first), ("last", name.last.elim .null .string)]

def encode (person : Person) : Json :=
  .object [("name", encodeName person.name), ("friends", .array (person.friends.map .string)),
    ("age", .number (.ofNat person.age (by omega)))]

def decodeName? (json : Json) : Option PersonName := do
  match ← Typed.recordFields? ["first", "last"] json with
  | [first, last] => return { first := ← Typed.required? first, last := ← Typed.optional? last }
  | _ => none

/-- An age is an integer number in range; a double is none, even if it is whole. -/
def decodeAge? : Json → Option (Fin 0x100000000)
  | .number (.int value _) =>
      if inRange : 0 ≤ value ∧ value < 0x100000000 then some ⟨value.toNat, by omega⟩ else none
  | _ => none

def decode? (json : Json) : Option Person := do
  match ← Typed.recordFields? ["name", "friends", "age"] json with
  | [name, friends, age] =>
      return {
        name := ← name.bind decodeName?
        friends := ← Typed.required? friends
        age := ← age.bind decodeAge? }
  | _ => none

instance : Encode Person := ⟨fun person => .ok person.encode⟩
instance : Decode Person := ⟨decode?⟩

end Person
end DocPath
