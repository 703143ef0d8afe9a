import DocPath.Node

/-! Equality of documents. Objects are equal when they have the same fields in any order; holes
equal holes only, and numbers are compared within their kind. -/

namespace DocPath.Node

mutual

def same : Node → Node → Bool
  | .absent, .absent => true
  | .null, .null => true
  | .bool left, .bool right => left == right
  | .number left, .number right => left.same right
  | .string left, .string right => left == right
  | .array left, .array right => sameItems left right
  | .object left, .object right => left.length == right.length && sameFields left right
  | _, _ => false

def sameItems : List Node → List Node → Bool
  | [], [] => true
  | item :: rest, other :: others => item.same other && sameItems rest others
  | _, _ => false

def sameFields : List (String × Node) → List (String × Node) → Bool
  | [], _ => true
  | (name, value) :: rest, others =>
      (match Fields.get? name others with
        | some other => value.same other
        | none => false) && sameFields rest others

end

end DocPath.Node
