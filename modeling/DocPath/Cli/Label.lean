/-! How files are called in messages: a file below the working directory by its path from there,
every other file as it was given. -/

namespace DocPath.Cli

def trimFront : List Char → List Char
  | '/' :: rest => trimFront rest
  | ['.'] => []
  | '.' :: '/' :: rest => trimFront rest
  | letters => letters

def trimBack : List Char → List Char
  | '/' :: rest => trimBack rest
  | ['.'] => []
  | '.' :: '/' :: rest => trimBack rest
  | letters => letters

def splitName (letters : List Char) : List Char × List Char :=
  (letters.takeWhile (· ≠ '/'), letters.dropWhile (· ≠ '/'))

def below? : List (List Char) → List Char → Option (List Char)
  | [], path => some (trimBack (trimFront path).reverse).reverse
  | name :: names, path =>
      let (first, rest) := splitName (trimFront path)
      if first = name then below? names rest else none

def namesOf (directory : List Char) : List (List Char) :=
  (directory.splitOn '/').filter fun name => name ≠ [] ∧ name ≠ ['.']

def isRooted (letters : List Char) : Bool := letters.head? = some '/'

/-- The path as a message shows it to a reader in the working directory. -/
def label (directory path : String) : String :=
  if isRooted directory.toList = isRooted path.toList then
    ((below? (namesOf directory.toList) path.toList).map String.ofList).getD path
  else path

end DocPath.Cli
