import DocPath.Json
import DocPath.Path.Parse

/-! Paths as lists of JSON values: a key is a string and an index a number. Names of properties
can be put together from such values, of which the first must be a key. -/

namespace DocPath

def Json.kind : Json → Kind
  | .null => .null
  | .bool _ => .boolean
  | .number _ => .number
  | .string _ => .string
  | .array _ => .array
  | .object _ => .object

namespace Token

def ofInt (value : Int) : Except Error Token :=
  if value < 0 then .error (.segmentOutOfRange value)
  else
    match Index.ofNat? value.toNat with
    | some position => .ok (.index position)
    | none => .error (.segmentOutOfRange value)

def ofJson : Json → Except Error Token
  | .string name => .ok (.key name)
  | .number (.int value _) => ofInt value
  | .number (.float value) => .error (.fractionalSegment (.float value))
  | other => .error (.segmentOfKind other.kind)

def toJson : Token → Json
  | .key name => .string name
  | .index position => .number (.ofNat position position.isLt)

end Token

namespace Path

def toJson (path : Path) : Json := .array (path.map Token.toJson)

def nameOfJson (segments : List Json) : Except Error String := do
  textStrict (← segments.mapM Token.ofJson)

end Path
end DocPath
