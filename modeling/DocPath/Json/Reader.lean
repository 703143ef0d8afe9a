import DocPath.Json.Lexeme

/-! Reading JSON text. Lexemes are taken one at a time; the containers that are still open wait on
a stack, innermost first, each with what it holds so far. A name that occurs twice in an object
keeps its first place and its last value. Text that nests containers deeper than a limit is not
read. -/

namespace DocPath.Json

/-- An open container that waits for a value: the items so far, last first, or the fields so far
and the name of the value. -/
inductive Frame where
  | array (reversed : List Json)
  | object (fields : List (String × Json)) (name : String)

/-- What may come next, and the open containers around it. -/
inductive Reading where
  | expectValue (outer : List Frame)
  /-- A first item or the end of an array must follow. -/
  | opened (outer : List Frame)
  /-- A name must follow; an object without fields may also end, if it was just opened. -/
  | expectName (fields : List (String × Json)) (closable : Bool) (outer : List Frame)
  | expectColon (fields : List (String × Json)) (name : String) (outer : List Frame)
  | afterItem (reversed : List Json) (outer : List Frame)
  | afterField (fields : List (String × Json)) (outer : List Frame)
  | done (json : Json)

namespace Reading

/-- A complete value goes into the innermost open container. -/
def complete (json : Json) : List Frame → Reading
  | [] => .done json
  | .array reversed :: outer => .afterItem (json :: reversed) outer
  | .object fields name :: outer => .afterField (Fields.put name json fields) outer

/-- Takes the first lexeme of a value. `limit` is the number of containers that may be open at
once. -/
def begin? (limit : Nat) (outer : List Frame) : Lexeme → Option Reading
  | .null => some (complete .null outer)
  | .bool value => some (complete (.bool value) outer)
  | .number value => some (complete (.number value) outer)
  | .string text => some (complete (.string text) outer)
  | .openArray => if outer.length < limit then some (.opened outer) else none
  | .openObject => if outer.length < limit then some (.expectName [] true outer) else none
  | _ => none

def step? (limit : Nat) (reading : Reading) (lexeme : Lexeme) : Option Reading :=
  match reading with
  | .expectValue outer => begin? limit outer lexeme
  | .opened outer =>
      if lexeme = .closeArray then some (complete (.array []) outer)
      else begin? limit (.array [] :: outer) lexeme
  | .expectName fields closable outer =>
      match lexeme with
      | .string name => some (.expectColon fields name outer)
      | .closeObject => if closable then some (complete (.object fields) outer) else none
      | _ => none
  | .expectColon fields name outer =>
      if lexeme = .colon then some (.expectValue (.object fields name :: outer)) else none
  | .afterItem reversed outer =>
      match lexeme with
      | .comma => some (.expectValue (.array reversed :: outer))
      | .closeArray => some (complete (.array reversed.reverse) outer)
      | _ => none
  | .afterField fields outer =>
      match lexeme with
      | .comma => some (.expectName fields false outer)
      | .closeObject => some (complete (.object fields) outer)
      | _ => none
  | .done _ => none

def result? : Reading → Option Json
  | .done json => some json
  | _ => none

end Reading

structure ReaderState where
  lexing : Lexing
  reading : Reading

def ReaderState.step? (limit : Nat) (state : ReaderState) (letter : Char) : Option ReaderState := do
  let (lexing, lexemes) ← Lexeme.step? state.lexing letter
  let reading ← lexemes.foldlM (Reading.step? limit) state.reading
  return { lexing, reading }

/-- The value that the letters spell, if they spell one with at most `limit` containers open at
once. -/
def readWithin? (limit : Nat) (letters : List Char) : Option Json := do
  let state ← letters.foldlM (ReaderState.step? limit) ⟨.between, .expectValue []⟩
  let ended ← Lexeme.finish? state.lexing
  let reading ← ended.toList.foldlM (Reading.step? limit) state.reading
  reading.result?

def depthLimit : Nat := 127

def parse? (text : String) : Option Json := readWithin? depthLimit text.toList

end DocPath.Json
