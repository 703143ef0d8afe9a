import DocPath.Node.Projection

/-! Flat maps: written paths with the values that stand there, in order, each path once. -/

namespace DocPath

structure FlatMap where
  entries : List (String × Json)
  distinct : (Fields.names entries).Nodup

namespace FlatMap

def empty : FlatMap := ⟨[], List.nodup_nil⟩

def insert (flat : FlatMap) (path : String) (value : Json) : FlatMap :=
  ⟨Fields.put path value flat.entries, Fields.nodup_names_put flat.distinct path value⟩

def erase (flat : FlatMap) (path : String) : FlatMap :=
  ⟨Fields.erase path flat.entries, Fields.nodup_names_erase flat.distinct path⟩

def get? (flat : FlatMap) (path : String) : Option Json := Fields.get? path flat.entries

def ofList (entries : List (String × Json)) : FlatMap :=
  entries.foldl (fun flat entry => flat.insert entry.1 entry.2) empty

def toJson (flat : FlatMap) : Json := .object flat.entries

def ofJson? : Json → Option FlatMap
  | .object fields => some (ofList fields)
  | _ => none

@[simp] theorem get?_empty (path : String) : empty.get? path = none := rfl

@[simp] theorem get?_insert_self (flat : FlatMap) (path : String) (value : Json) :
    (flat.insert path value).get? path = some value :=
  Fields.get?_put_self path value flat.entries

theorem get?_insert_of_ne {path other : String} (differ : other ≠ path) (flat : FlatMap)
    (value : Json) : (flat.insert path value).get? other = flat.get? other :=
  Fields.get?_put_of_ne differ value flat.entries

theorem entries_ofList (entries : List (String × Json)) :
    (ofList entries).entries = Fields.ofList entries := by
  have kept : ∀ flat : FlatMap,
      (entries.foldl (fun flat entry => flat.insert entry.1 entry.2) flat).entries =
        entries.foldl (fun fields entry => Fields.put entry.1 entry.2 fields) flat.entries := by
    induction entries with
    | nil => exact fun _ => rfl
    | cons entry rest ih => exact fun flat => ih (flat.insert entry.1 entry.2)
  exact kept empty

end FlatMap
end DocPath
