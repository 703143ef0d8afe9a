import DocPath.Json
import DocPath.Number.Numeral

/-! Lexemes of JSON text. The text is read one character at a time: the state says which lexeme is
under way, and a character either continues it or ends it and begins the next. Strings are read
with their escapes resolved, where a pair of surrogate escapes stands for one character and a lone
one for none. -/

namespace DocPath.Json

inductive Lexeme where
  | openArray
  | closeArray
  | openObject
  | closeObject
  | comma
  | colon
  | null
  | bool (value : Bool)
  | number (value : Number)
  | string (text : String)
deriving DecidableEq

/-- How far an escape inside a string has been read. `lead` is the first half of a surrogate pair
that waits for the second. -/
inductive Escape where
  | begun (lead : Option Nat)
  | hex (lead : Option Nat) (digits : Nat) (value : Nat)
  | awaiting (lead : Nat)
deriving DecidableEq

/-- The lexeme under way, with its letters in reverse. -/
inductive Lexing where
  | between
  | word (letters : List Char)
  | numeral (letters : List Char)
  | string (letters : List Char) (escape : Option Escape)
deriving DecidableEq

namespace Lexeme

def isBlank (letter : Char) : Bool :=
  letter = ' ' || letter = '\t' || letter = '\n' || letter = '\r'

def isNumeralLetter (letter : Char) : Bool :=
  letter.isDigit || letter = '-' || letter = '+' || letter = '.' || letter = 'e' || letter = 'E'

def ofPunctuation? (letter : Char) : Option Lexeme :=
  if letter = '[' then some .openArray
  else if letter = ']' then some .closeArray
  else if letter = '{' then some .openObject
  else if letter = '}' then some .closeObject
  else if letter = ',' then some .comma
  else if letter = ':' then some .colon
  else none

def ofWord? (letters : List Char) : Option Lexeme :=
  if letters = ['n', 'u', 'l', 'l'] then some .null
  else if letters = ['t', 'r', 'u', 'e'] then some (.bool true)
  else if letters = ['f', 'a', 'l', 's', 'e'] then some (.bool false)
  else none

def hexValue? (letter : Char) : Option Nat :=
  if letter.isDigit then some (letter.toNat - '0'.toNat)
  else if 'a' ≤ letter ∧ letter ≤ 'f' then some (letter.toNat - 'a'.toNat + 10)
  else if 'A' ≤ letter ∧ letter ≤ 'F' then some (letter.toNat - 'A'.toNat + 10)
  else none

def ofShortEscape? (letter : Char) : Option Char :=
  if letter = '"' then some '"'
  else if letter = '\\' then some '\\'
  else if letter = '/' then some '/'
  else if letter = 'b' then some '\x08'
  else if letter = 'f' then some '\x0c'
  else if letter = 'n' then some '\n'
  else if letter = 'r' then some '\r'
  else if letter = 't' then some '\t'
  else none

/-- Ends a four-digit escape: a character, the first half of a pair, or the second half of the
pair whose first half waits. -/
def closeHex? (letters : List Char) (lead : Option Nat) (value : Nat) : Option Lexing :=
  match lead with
  | none =>
      if 0xD800 ≤ value ∧ value < 0xDC00 then some (.string letters (some (.awaiting value)))
      else if 0xDC00 ≤ value ∧ value < 0xE000 then none
      else some (.string (Char.ofNat value :: letters) none)
  | some first =>
      if 0xDC00 ≤ value ∧ value < 0xE000 then
        let joined := 0x10000 + (first - 0xD800) * 0x400 + (value - 0xDC00)
        some (.string (Char.ofNat joined :: letters) none)
      else none

def stepEscape? (letters : List Char) (escape : Escape) (letter : Char) : Option Lexing :=
  match escape with
  | .awaiting lead =>
      if letter = '\\' then some (.string letters (some (.begun (some lead)))) else none
  | .begun lead =>
      if letter = 'u' then some (.string letters (some (.hex lead 0 0)))
      else if lead.isSome then none
      else (ofShortEscape? letter).map fun meant => .string (meant :: letters) none
  | .hex lead digits value =>
      (hexValue? letter).bind fun digit =>
        let extended := 16 * value + digit
        if digits = 3 then closeHex? letters lead extended
        else some (.string letters (some (.hex lead (digits + 1) extended)))

def start? (letter : Char) : Option (Lexing × Option Lexeme) :=
  if isBlank letter then some (.between, none)
  else if letter = '"' then some (.string [] none, none)
  else if letter.isDigit ∨ letter = '-' then some (.numeral [letter], none)
  else if letter.isAlpha then some (.word [letter], none)
  else (ofPunctuation? letter).map fun lexeme => (.between, some lexeme)

def finish? : Lexing → Option (Option Lexeme)
  | .between => some none
  | .word letters => (ofWord? letters.reverse).map some
  | .numeral letters => (Number.parse? letters.reverse).map fun value => some (.number value)
  | .string _ _ => none

/-- Ends the lexeme under way and begins the next one with `letter`. -/
def turn? (state : Lexing) (letter : Char) : Option (Lexing × List Lexeme) := do
  let ended ← finish? state
  let (next, whole) ← start? letter
  return (next, ended.toList ++ whole.toList)

def step? (state : Lexing) (letter : Char) : Option (Lexing × List Lexeme) :=
  match state with
  | .between => turn? .between letter
  | .word letters =>
      if letter.isAlpha then some (.word (letter :: letters), []) else turn? state letter
  | .numeral letters =>
      if isNumeralLetter letter then some (.numeral (letter :: letters), [])
      else turn? state letter
  | .string letters (some escape) => (stepEscape? letters escape letter).map fun next => (next, [])
  | .string letters none =>
      if letter = '"' then some (.between, [.string (String.ofList letters.reverse)])
      else if letter = '\\' then some (.string letters (some (.begun none)), [])
      else if letter.toNat < 32 then none
      else some (.string (letter :: letters) none, [])

end Lexeme
end DocPath.Json
