import DocPath.Node.Slot
import DocPath.Path.Parse

/-! Reading a document at a path. Reading never fails: a missing key, an index beyond the end, a
hole, and a step into a value that is no container of the right kind all find nothing. -/

namespace DocPath.Node

/-- The node that a path names. -/
def get? (node : Node) : Path → Option Node
  | [] => node.present?
  | token :: rest => (node.child? token).bind fun child => child.get? rest

def getD (node : Node) (path : Path) (fallback : Node) : Node := (node.get? path).getD fallback

def getAt (node : Node) (path : String) : Except Error (Option Node) := do
  return node.get? (← Path.parse path)

def getAtD (node : Node) (path : String) (fallback : Node) : Except Error Node := do
  return (← node.getAt path).getD fallback

@[simp] theorem get?_nil (node : Node) : node.get? [] = node.present? := rfl

@[simp] theorem get?_cons (node : Node) (token : Token) (rest : Path) :
    node.get? (token :: rest) = (node.child? token).bind fun child => child.get? rest := rfl

@[simp] theorem get?_absent (path : Path) : Node.absent.get? path = none := by
  cases path with
  | nil => rfl
  | cons token rest => rw [get?_cons, child?_eq, slot_absent]; rfl

theorem getAt_of_parse {text : String} {path : Path} (read : Path.parse text = .ok path) (node : Node) :
    node.getAt text = .ok (node.get? path) := by
  rw [getAt, read]
  rfl

theorem getAtD_of_parse {text : String} {path : Path} (read : Path.parse text = .ok path)
    (node fallback : Node) : node.getAtD text fallback = .ok (node.getD path fallback) := by
  rw [getAtD, getAt_of_parse read]
  rfl

theorem ne_absent_of_get? {node found : Node} {path : Path} (held : node.get? path = some found) :
    node ≠ .absent := by
  rintro rfl
  rw [get?_absent] at held
  cases held

theorem bind_get?_present? (node : Node) (path : Path) :
    (node.present?.bind fun found => found.get? path) = node.get? path := by
  by_cases hole : node = .absent
  · subst hole
    rw [present?_absent, get?_absent]
    rfl
  · rw [present?_of_ne_absent hole]
    rfl

theorem getD_get?_nil (node : Node) : (node.get? []).getD .absent = node := by
  by_cases hole : node = .absent
  · subst hole
    rfl
  · rw [get?_nil, present?_of_ne_absent hole]
    rfl

theorem get?_cons_eq (node : Node) (token : Token) (rest : Path) :
    node.get? (token :: rest) = (node.slot token).get? rest := by
  rw [get?_cons, child?_eq, bind_get?_present?]

theorem get?_cons_of_not_container {node : Node} (single : node.isContainer = false) (token : Token)
    (rest : Path) : node.get? (token :: rest) = none := by
  rw [get?_cons_eq, slot_of_not_container single, get?_absent]

theorem get?_append (node : Node) (front back : Path) :
    node.get? (front ++ back) = (node.get? front).bind fun inner => inner.get? back := by
  induction front generalizing node with
  | nil =>
    by_cases hole : node = .absent
    · subst hole
      simp
    · have found := present?_eq_some_iff.mpr ⟨hole, rfl⟩
      simp [found]
  | cons token rest ih =>
    rw [List.cons_append, get?_cons, get?_cons, Option.bind_assoc]
    exact congrArg _ (funext fun child => ih child)

theorem container_of_get? {node found : Node} {front back : Path} {token : Token}
    (held : node.get? (front ++ token :: back) = some found) :
    ∃ container, node.get? front = some container ∧ container.fits token = true ∧
      container.slot token ≠ .absent := by
  rw [get?_append, Option.bind_eq_some_iff] at held
  obtain ⟨container, above, below⟩ := held
  rw [get?_cons_eq] at below
  have present := ne_absent_of_get? below
  exact ⟨container, above, fits_of_slot present, present⟩

end DocPath.Node
