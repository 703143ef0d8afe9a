import DocPath.Kind
import DocPath.Number
import DocPath.Path.Scan
import DocPath.Path.Text

/-! Everything that can go wrong, each cause with what is needed to explain it. The category, the
message, the path and the offset of an error are functions of its cause. -/

namespace DocPath

inductive Error where
  | badPath (text : String) (failure : Path.Failure)
  | emptyPath (text : Option String)
  | leadingIndex (text : Option String)
  | emptyKey
  | delimiterInKey (name : String)
  /-- A node of the wrong kind stands before the token at `depth`. -/
  | kindMismatch (path : Path) (depth : Nat) (token : Token) (found : Kind)
  /-- The index at `depth` lies beyond the array and beyond the largest one allowed. -/
  | indexBeyondLimit (path : Path) (depth : Nat) (position : Index)
  | nameStartsWithIndex (position : Index)
  | segmentOutOfRange (value : Int)
  | fractionalSegment (number : Number)
  | segmentOfKind (kind : Kind)
  | keyNotText
  | shapeMismatch
deriving DecidableEq

namespace Error

inductive Category where
  | malformedPath
  | typeMismatch
  | argumentType
  | indexRange
  | encoding
  | decoding
deriving DecidableEq

def category : Error → Category
  | .badPath .. | .emptyPath _ | .leadingIndex _ | .emptyKey | .delimiterInKey _ => .malformedPath
  | .kindMismatch .. => .typeMismatch
  | .indexBeyondLimit .. => .indexRange
  | .nameStartsWithIndex _ | .segmentOutOfRange _ | .fractionalSegment _ | .segmentOfKind _ =>
      .argumentType
  | .keyNotText => .encoding
  | .shapeMismatch => .decoding

def path : Error → Option String
  | .badPath text _ => some text
  | .emptyPath text => text
  | .leadingIndex text => text
  | .kindMismatch path _ _ _ => some (Path.text path)
  | .indexBeyondLimit path _ _ => some (Path.text path)
  | _ => none

def offset : Error → Option Nat
  | .badPath _ failure => some failure.offset
  | _ => none

end Error

def Path.Fault.reason : Path.Fault → String
  | .unexpectedDot => "unexpected '.' character"
  | .dotInIndex => "unexpected '.' inside index"
  | .unexpectedOpen => "unexpected '[' character"
  | .unexpectedClose => "unexpected ']' character"
  | .emptyIndex => "empty array index"
  | .indexOutOfRange => "array index out of range"
  | .missingDot => "expected '.' after ']'"
  | .notADigit => "invalid array index"
  | .unterminatedIndex => "unterminated array index"
  | .trailingDot => "path cannot end with '.'"

def Path.place (path : Path) : String :=
  if Path.text path = "" then "root" else "'" ++ Path.text path ++ "'"

def Error.message : Error → String
  | .badPath text failure =>
      "invalid path '" ++ text ++ "': " ++ failure.fault.reason ++ " at offset " ++
        Nat.repr failure.offset
  | .emptyPath _ => "empty path"
  | .leadingIndex _ => "path cannot start with an array index"
  | .emptyKey => "path contains an empty key"
  | .delimiterInKey name => "key '" ++ name ++ "' contains a path delimiter"
  | .kindMismatch path depth token found =>
      let expected := if token.isIndex then Kind.array else Kind.object
      "expected " ++ expected.name ++ " at " ++ Path.place (path.take depth) ++ " to apply '" ++
        token.text ++ "', found " ++ found.name
  | .indexBeyondLimit path depth position =>
      "index " ++ Nat.repr position ++ " at '" ++ Path.text (path.take (depth + 1)) ++
        "' exceeds the maximum of " ++ Nat.repr maxArrayIndex
  | .nameStartsWithIndex position =>
      "first path segment must be a key, found index " ++ Nat.repr position
  | .segmentOutOfRange value => "invalid array index: " ++ Int.repr value
  | .fractionalSegment number => "invalid argument type: non-integer number " ++ number.text
  | .segmentOfKind kind => "invalid argument type: " ++ kind.name
  | .keyNotText => "serialize failed: key must be a string"
  | .shapeMismatch => "deserialize failed: the document does not have the wanted shape"

end DocPath
