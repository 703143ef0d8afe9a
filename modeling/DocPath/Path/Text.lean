import DocPath.Path

/-! The written form of paths: a key is written as it is, with a point in front unless it comes
first, and an index stands in brackets. A leading index is written as well, since that is how the
items of a root array are named. -/

namespace DocPath

namespace Token

def letters : Token → List Char
  | .key name => name.toList
  | .index position => '[' :: (Nat.toDigits 10 position ++ [']'])

/-- The token as it is written after another one. -/
def continuation : Token → List Char
  | .key name => '.' :: name.toList
  | .index position => letters (.index position)

def text (token : Token) : String := String.ofList token.letters

end Token

namespace Path

def letters : Path → List Char
  | [] => []
  | first :: rest => first.letters ++ rest.flatMap Token.continuation

def text (path : Path) : String := String.ofList (letters path)

/-- The name of a property: a leading key, written as it is, and further tokens behind it. -/
def nameOf (first : String) (rest : List Token) : String :=
  String.ofList (first.toList ++ rest.flatMap Token.continuation)

@[simp] theorem letters_nil : letters [] = [] := rfl

theorem letters_cons (first : Token) (rest : Path) :
    letters (first :: rest) = first.letters ++ rest.flatMap Token.continuation := rfl

theorem letters_append {front : Path} (notRoot : front ≠ []) (back : Path) :
    letters (front ++ back) = letters front ++ back.flatMap Token.continuation := by
  cases front with
  | nil => exact absurd rfl notRoot
  | cons first rest => simp [letters]

end Path
end DocPath
