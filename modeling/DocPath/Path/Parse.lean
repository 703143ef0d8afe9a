import DocPath.Error

/-! Reading paths. A lenient path may be empty or start with an index; a strict one starts with a
key. Tokens that were put together by hand are checked against the written form, so that the path
they make can be written and read back. -/

namespace DocPath

def Token.fault? : Token → Option Error
  | .index _ => none
  | .key name =>
      if name = "" then some .emptyKey
      else if name.toList.any Path.isDelimiter then some (.delimiterInKey name)
      else none

namespace Path

def parse (text : String) : Except Error Path :=
  match scan text.toList with
  | .ok path => .ok path
  | .error failure => .error (.badPath text failure)

/-- What keeps a path from being strict. `text` is what the path was read from, if anything. -/
def strictFault? (text : Option String) : Path → Option Error
  | [] => some (.emptyPath text)
  | .index _ :: _ => some (.leadingIndex text)
  | .key _ :: _ => none

def parseWith (strict : Bool) (text : String) : Except Error Path := do
  let path ← parse text
  match if strict then strictFault? (some text) path else none with
  | some fault => .error fault
  | none => return path

def parseStrict (text : String) : Except Error Path := parseWith true text

/-- Checks tokens against the written form of paths. -/
def validate (strict : Bool) (path : Path) : Except Error Unit :=
  match path.findSome? Token.fault? with
  | some fault => .error fault
  | none =>
      match if strict then strictFault? none path else none with
      | some fault => .error fault
      | none => .ok ()

def textStrict (path : Path) : Except Error String :=
  match path with
  | .index position :: _ => .error (.nameStartsWithIndex position)
  | _ => .ok (text path)

end Path
end DocPath
