import DocPath.Path

/-! Scanning a written path. The text is read one character at a time; the state says what was
read last, and a character that cannot stand there ends the scan with a fault and an offset in
bytes. -/

namespace DocPath.Path

inductive Fault where
  | unexpectedDot
  | dotInIndex
  | unexpectedOpen
  | unexpectedClose
  | emptyIndex
  | indexOutOfRange
  | missingDot
  | notADigit
  | unterminatedIndex
  | trailingDot
deriving DecidableEq

structure Failure where
  fault : Fault
  offset : Nat
deriving DecidableEq

/-- What was read last. Letters and digits of an unfinished token are kept in reverse. -/
inductive Scanning where
  | start
  | inKey (reversed : List Char)
  | afterDot
  | inIndex (reversed : List Char)
  | afterIndex
deriving DecidableEq

/-- A scan under way: the tokens so far, last first, and the number of bytes read. -/
structure Scan where
  reversed : List Token
  scanning : Scanning
  offset : Nat
deriving DecidableEq

def isDelimiter (letter : Char) : Bool := letter = '.' || letter = '[' || letter = ']'

namespace Scan

def begin : Scan := ⟨[], .start, 0⟩

def fail {α : Type} (scan : Scan) (fault : Fault) : Except Failure α :=
  .error ⟨fault, scan.offset⟩

def keyOf (reversed : List Char) : Token := .key (String.ofList reversed.reverse)

def advance (scan : Scan) (letter : Char) (scanning : Scanning) : Scan :=
  { scan with scanning, offset := scan.offset + letter.utf8Size }

def finish (scan : Scan) (letter : Char) (token : Token) (scanning : Scanning) : Scan :=
  { reversed := token :: scan.reversed, scanning, offset := scan.offset + letter.utf8Size }

def stepDot (scan : Scan) : Except Failure Scan :=
  match scan.scanning with
  | .afterIndex => .ok (scan.advance '.' .afterDot)
  | .inKey reversed => .ok (scan.finish '.' (keyOf reversed) .afterDot)
  | .inIndex _ => scan.fail .dotInIndex
  | .start | .afterDot => scan.fail .unexpectedDot

def stepOpen (scan : Scan) : Except Failure Scan :=
  match scan.scanning with
  | .start | .afterIndex => .ok (scan.advance '[' (.inIndex []))
  | .inKey reversed => .ok (scan.finish '[' (keyOf reversed) (.inIndex []))
  | .afterDot | .inIndex _ => scan.fail .unexpectedOpen

/-- Closes an index. An index that is too large is reported where its digits begin; they are ASCII,
so each of them takes one byte. -/
def stepClose (scan : Scan) : Except Failure Scan :=
  match scan.scanning with
  | .inIndex [] => scan.fail .emptyIndex
  | .inIndex (digit :: digits) =>
      match Index.ofNat? (Nat.ofDigitChars 10 (digit :: digits).reverse 0) with
      | some position => .ok (scan.finish ']' (.index position) .afterIndex)
      | none => .error ⟨.indexOutOfRange, scan.offset - (digit :: digits).length⟩
  | _ => scan.fail .unexpectedClose

def stepLetter (scan : Scan) (letter : Char) : Except Failure Scan :=
  match scan.scanning with
  | .afterIndex => scan.fail .missingDot
  | .inIndex digits =>
      if letter.isDigit then .ok (scan.advance letter (.inIndex (letter :: digits)))
      else scan.fail .notADigit
  | .inKey reversed => .ok (scan.advance letter (.inKey (letter :: reversed)))
  | .start | .afterDot => .ok (scan.advance letter (.inKey [letter]))

def step (scan : Scan) (letter : Char) : Except Failure Scan :=
  if letter = '.' then scan.stepDot
  else if letter = '[' then scan.stepOpen
  else if letter = ']' then scan.stepClose
  else scan.stepLetter letter

def close (scan : Scan) : Except Failure Path :=
  match scan.scanning with
  | .start | .afterIndex => .ok scan.reversed.reverse
  | .inKey reversed => .ok (keyOf reversed :: scan.reversed).reverse
  | .afterDot => scan.fail .trailingDot
  | .inIndex _ => scan.fail .unterminatedIndex

def run (letters : List Char) : Except Failure Path := do
  (← letters.foldlM step begin).close

end Scan

/-- A text without delimiters is not gone through letter by letter: it is a key as a whole, or the
root if it is empty. -/
def scan (letters : List Char) : Except Failure Path :=
  if letters = [] then .ok []
  else if letters.any isDelimiter then Scan.run letters
  else .ok [.key (String.ofList letters)]

end DocPath.Path
