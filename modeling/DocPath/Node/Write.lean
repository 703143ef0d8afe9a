import DocPath.Node.Read

/-! Writing into a document at a path. A write creates the containers that are missing on its way
and pads arrays with holes, but it never turns one kind of container into another and never
replaces a value that stands in its way. What stops a write is an obstruction; whatever the write
created before it met the obstruction stays. -/

namespace DocPath

/-- What stops a write, with the number of tokens before it. -/
inductive Obstruction where
  | kindMismatch (depth : Nat) (token : Token) (found : Kind)
  | indexBeyondLimit (depth : Nat) (position : Index)
deriving DecidableEq

namespace Obstruction

def deeper : Obstruction → Obstruction
  | .kindMismatch depth token found => .kindMismatch (depth + 1) token found
  | .indexBeyondLimit depth position => .indexBeyondLimit (depth + 1) position

def error (path : Path) : Obstruction → Error
  | .kindMismatch depth token found => .kindMismatch path depth token found
  | .indexBeyondLimit depth position => .indexBeyondLimit path depth position

end Obstruction

/-- What a write leaves behind: the document, and what stopped the write if anything did. -/
structure Written where
  document : Node
  obstruction : Option Obstruction

namespace Node

def reaches (length position : Nat) : Bool := position < length || position ≤ maxArrayIndex

theorem reaches_iff {length position : Nat} :
    reaches length position = true ↔ position ≤ maxArrayIndex ∨ position < length := by
  simp only [reaches, Bool.or_eq_true, decide_eq_true_eq]
  exact or_comm

/-- What keeps a write from going on with a token, seen from the node it has reached. A hole is
opened first, so only the largest index can be in its way. -/
def obstruction? (node : Node) (token : Token) : Option Obstruction :=
  match node.opened token, token with
  | .object _, .key _ => none
  | .array items, .index position =>
      if reaches items.length position then none else some (.indexBeyondLimit 0 position)
  | other, _ => some (.kindMismatch 0 token other.kind)

def writeBelow (value : Node) : Path → Node → Written
  | [], _ => ⟨value, none⟩
  | token :: rest, node =>
      match node.obstruction? token with
      | some obstruction => ⟨node.opened token, some obstruction⟩
      | none =>
          let inner := writeBelow value rest (node.slot token)
          ⟨(node.opened token).withSlot token inner.document,
            inner.obstruction.map Obstruction.deeper⟩

/-- What a write builds on. A null document is treated like one that is not there yet; a null
deeper inside is a value and stands in the way. -/
def ground (document : Node) : Node := if document.isNull then .absent else document

def write (document : Node) (path : Path) (value : Node) : Written :=
  writeBelow value path document.ground

def set (document : Node) (path : Path) (value : Node) : Except Error Node :=
  let written := document.write path value
  match written.obstruction with
  | none => .ok written.document
  | some obstruction => .error (obstruction.error path)

/-- What a write at a written path leaves of a document, and the error that stopped it, if any. A
text that is no path leaves the document as it is. -/
def writeAt (document : Node) (path : String) (value : Node) : Node × Option Error :=
  match Path.parse path with
  | .error fault => (document, some fault)
  | .ok tokens =>
      let written := document.write tokens value
      (written.document, written.obstruction.map (Obstruction.error tokens))

def setAt (document : Option Node) (path : String) (value : Node) : Except Error Node :=
  match (document.getD .absent).writeAt path value with
  | (changed, none) => .ok changed
  | (_, some error) => .error error

def modify? (change : Node → Node) : Path → Node → Option Node
  | [], node => node.present?.map change
  | token :: rest, node =>
      (node.lookup? token).bind fun (child, around) =>
        if child.isAbsent then none else (modify? change rest child).map around

def replace? (document : Node) (path : Path) (value : Node) : Option Node :=
  modify? (fun _ => value) path document

/-- Takes out the node that a path names and leaves null in its place. -/
def take? (document : Node) (path : Path) : Option (Node × Node) := do
  let taken ← document.get? path
  return (taken, ← document.replace? path .null)

def push? (document : Node) (path : Path) (item : Node) : Option Node := do
  let items ← (← document.get? path).items?
  document.replace? path (.array (items ++ [item]))

def remove? (document : Node) (path : Path) (name : String) : Option Node := do
  let fields ← (← document.get? path).fields?
  guard ((Fields.get? name fields).isSome)
  document.replace? path (.object (Fields.erase name fields))

end Node
end DocPath
