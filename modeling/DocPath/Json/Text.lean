import DocPath.Json

/-! The text of JSON values: a compact form without blanks, and an indented form with one item a
line. Both are folds, so they agree on every value that they are given in another form. -/

namespace DocPath.Json

/-- A character inside a string literal. Quotes, backslashes and control characters are escaped,
with the short escape where there is one; everything else stands for itself. -/
def escape (letter : Char) : List Char :=
  if letter = '"' then ['\\', '"']
  else if letter = '\\' then ['\\', '\\']
  else if letter = '\x08' then ['\\', 'b']
  else if letter = '\x0c' then ['\\', 'f']
  else if letter = '\n' then ['\\', 'n']
  else if letter = '\r' then ['\\', 'r']
  else if letter = '\t' then ['\\', 't']
  else if letter.toNat < 32 then
    ['\\', 'u', '0', '0', Nat.digitChar (letter.toNat / 16), Nat.digitChar (letter.toNat % 16)]
  else [letter]

def quoted (text : String) : List Char := '"' :: (text.toList.flatMap escape ++ ['"'])

def literal (value : Bool) : List Char :=
  if value then ['t', 'r', 'u', 'e'] else ['f', 'a', 'l', 's', 'e']

def commaSeparated (items : List (List Char)) : List Char := [','].intercalate items

/-- The compact form. An object that is announced as empty is closed at once. -/
def compactLayout : Algebra (List Char) where
  null := ['n', 'u', 'l', 'l']
  bool := literal
  number := Number.letters
  string := quoted
  array items := '[' :: (commaSeparated items ++ [']'])
  object announced fields :=
    if announced = 0 then ['{', '}']
    else '{' :: (commaSeparated (fields.map fun field => quoted field.1 ++ ':' :: field.2) ++ ['}'])

theorem compactLayout_object (fields : List (String × List Char)) :
    compactLayout.object fields.length fields =
      '{' :: (commaSeparated (fields.map fun field => quoted field.1 ++ ':' :: field.2) ++ ['}']) := by
  cases fields <;> rfl

def newLine (width level : Nat) : List Char := '\n' :: List.replicate (width * level) ' '

/-- Brackets around items, each on a line of its own one level deeper; without items the brackets
touch. -/
def block (width level : Nat) (opening closing : Char) (items : List (List Char)) : List Char :=
  if items = [] then [opening, closing]
  else
    opening ::
      (commaSeparated (items.map (newLine width (level + 1) ++ ·)) ++ newLine width level ++ [closing])

/-- The indented form, as a function of the nesting level at which the value stands. -/
def indentedLayout (width : Nat) : Algebra (Nat → List Char) where
  null _ := ['n', 'u', 'l', 'l']
  bool value _ := literal value
  number value _ := value.letters
  string text _ := quoted text
  array items level := block width level '[' ']' (items.map fun item => item (level + 1))
  object announced fields level :=
    if announced = 0 then ['{', '}']
    else
      block width level '{' '}'
        (fields.map fun field => quoted field.1 ++ ':' :: ' ' :: field.2 (level + 1))

def text (json : Json) : String := String.ofList (json.fold compactLayout)

/-- The widest indentation that can be laid out. Its blanks are put together before anything is written. -/
def widestIndentation : Nat := 0x7fffffffffffffff

/-- The text of a value that can be written with any algebra, in the layout of a width; zero asks for the
compact one. Where the indentation is too wide there is no text, however little there is to indent. -/
def layOut? (width : Nat) (write : ∀ {α : Type}, Algebra α → α) : Option String :=
  if width = 0 then some (String.ofList (write compactLayout))
  else if width ≤ widestIndentation then some (String.ofList (write (indentedLayout width) 0))
  else none

def indentedText? (width : Nat) (json : Json) : Option String :=
  layOut? width fun algebra => json.fold algebra

theorem layOut?_eq_none_iff {width : Nat} {write : ∀ {α : Type}, Algebra α → α} :
    layOut? width write = none ↔ widestIndentation < width := by
  unfold layOut?
  split
  next zero => simp [zero]
  split
  next within => simp [within]
  next beyond => simp [Nat.lt_of_not_le beyond]

theorem indentedText?_eq_none_iff {width : Nat} {json : Json} :
    json.indentedText? width = none ↔ widestIndentation < width :=
  layOut?_eq_none_iff

end DocPath.Json
