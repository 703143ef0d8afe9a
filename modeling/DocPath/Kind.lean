/-! The kinds of values that a document can hold at a place, with the names that messages use. -/

namespace DocPath

inductive Kind where
  | absent
  | null
  | boolean
  | number
  | string
  | array
  | object
deriving DecidableEq

def Kind.name : Kind → String
  | .absent => "absent"
  | .null => "null"
  | .boolean => "boolean"
  | .number => "number"
  | .string => "string"
  | .array => "array"
  | .object => "object"

end DocPath
