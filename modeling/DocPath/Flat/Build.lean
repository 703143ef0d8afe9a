import DocPath.Flat.Leaves
import DocPath.Node.Compact
import DocPath.Node.Write

/-! Building documents from flat maps. The entries are written one after another into a document
that begins as nothing; entries that disagree about the kind of a node stop the build at the first
write that meets the conflict. -/

namespace DocPath

namespace FlatMap

def writeAll (entries : List (String × Json)) (document : Option Node) :
    Except Error (Option Node) :=
  entries.foldlM (fun document entry => do
    return some (← Node.setAt document entry.1 (Node.ofJson entry.2))) document

/-- The document that a flat map describes. An empty map describes null. With `compact` the holes
between sparse indices are taken out. -/
def build (flat : FlatMap) (compact : Bool) : Except Error Node := do
  let document := (← writeAll flat.entries none).getD .null
  return if compact then document.compact else document

end FlatMap

/-- A copy made by flattening a document and building it again. Empty containers and holes at the
end of arrays are lost; other holes survive unless the copy is compacted. -/
def Node.copy (document : Node) (compact : Bool) : Except Error Node :=
  document.flatten.build compact

end DocPath
