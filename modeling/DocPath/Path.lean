/-! Paths into a document. A path is a list of tokens, each an object key or an array index; the
empty path names the root. Keys are arbitrary here: only the written form of a path restricts
them. -/

namespace DocPath

/-- Positions in an array have 64 bits. -/
abbrev Index := Fin 0x10000000000000000

namespace Index

def ofNat? (position : Nat) : Option Index :=
  if inRange : position < 0x10000000000000000 then some ⟨position, inRange⟩ else none

/-- The index of a position. Positions that differ by a multiple of `2 ^ 64` share an index, which
matters for no array whose length an index can name. -/
def ofPosition (position : Nat) : Index :=
  ⟨position % 0x10000000000000000, Nat.mod_lt _ (by decide)⟩

theorem ofNat?_eq_some_iff {position : Nat} {index : Index} :
    ofNat? position = some index ↔ index.val = position := by
  unfold ofNat?
  constructor
  · intro named
    obtain ⟨inRange, same⟩ := Option.dite_none_right_eq_some.mp named
    exact congrArg Fin.val (Option.some.inj same).symm
  · rintro rfl
    exact dif_pos index.isLt

theorem val_ofPosition {position : Nat} (inRange : position < 0x10000000000000000) :
    (ofPosition position).val = position := Nat.mod_eq_of_lt inRange

@[simp] theorem ofPosition_val (index : Index) : ofPosition index.val = index :=
  Fin.ext (Nat.mod_eq_of_lt index.isLt)

end Index

/-- The largest index at which a write may extend an array. Reading knows no such limit. -/
def maxArrayIndex : Nat := 0x100000

inductive Token where
  | key (name : String)
  | index (position : Index)
deriving DecidableEq

namespace Token

def isKey : Token → Bool
  | .key _ => true
  | .index _ => false

def isIndex : Token → Bool
  | .key _ => false
  | .index _ => true

def key? : Token → Option String
  | .key name => some name
  | .index _ => none

def index? : Token → Option Index
  | .key _ => none
  | .index position => some position

end Token

abbrev Path := List Token

namespace Path

def isRoot (path : Path) : Bool := path.isEmpty

def under {α : Type} (token : Token) (entry : Path × α) : Path × α := (token :: entry.1, entry.2)

/-- Every index of the path is one that a write may extend an array to. -/
def WithinLimit (path : Path) : Prop :=
  ∀ position, Token.index position ∈ path → position.val ≤ maxArrayIndex

theorem withinLimit_cons_iff {token : Token} {rest : Path} :
    WithinLimit (token :: rest) ↔ WithinLimit [token] ∧ WithinLimit rest := by
  simp [WithinLimit, or_imp, forall_and]

def parent? (path : Path) : Option Path := if path = [] then none else some path.dropLast

def last? (path : Path) : Option Token := path.getLast?

end Path
end DocPath
