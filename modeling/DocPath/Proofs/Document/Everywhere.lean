import DocPath.Proofs.Write.Fill

/-! What holds at every depth of a document. A finished write keeps it if one step of the write does:
what was there stays, the value brings its own, and only the containers on the way have to be
looked at again. -/

namespace DocPath.Node

/-- A node that occurs in a document, the document itself included. -/
inductive Occurs (part : Node) : Node → Prop where
  | here : Occurs part part
  | item {items : List Node} {item : Node} (member : item ∈ items) (inside : Occurs part item) :
      Occurs part (.array items)
  | field {fields : List (String × Node)} {field : String × Node} (member : field ∈ fields)
      (inside : Occurs part field.2) : Occurs part (.object fields)

section
variable (holds : Node → Prop)

def Everywhere (document : Node) : Prop := ∀ part, Occurs part document → holds part

/-- Everywhere below the document itself. -/
def Inside : Node → Prop
  | .array items => ∀ item ∈ items, Everywhere holds item
  | .object fields => ∀ field ∈ fields, Everywhere holds field.2
  | _ => True

end

section
variable {holds : Node → Prop}

theorem everywhere_iff {document : Node} :
    Everywhere holds document ↔ holds document ∧ Inside holds document := by
  constructor
  · intro whole
    refine ⟨whole document .here, ?_⟩
    cases document with
    | absent | null | bool | number | string => trivial
    | array items => exact fun item member part inside => whole part (.item member inside)
    | object fields => exact fun field member part inside => whole part (.field member inside)
  · intro parts part occurs
    cases occurs with
    | here => exact parts.1
    | item member inside => exact parts.2 _ member part inside
    | field member inside => exact parts.2 _ member part inside

theorem everywhere_array_iff {items : List Node} :
    Everywhere holds (.array items) ↔
      holds (.array items) ∧ ∀ item ∈ items, Everywhere holds item := everywhere_iff

theorem everywhere_object_iff {fields : List (String × Node)} :
    Everywhere holds (.object fields) ↔
      holds (.object fields) ∧ ∀ field ∈ fields, Everywhere holds field.2 := everywhere_iff

theorem everywhere_single_iff {node : Node} (single : node.isContainer = false) :
    Everywhere holds node ↔ holds node := by
  rw [everywhere_iff, and_iff_left]
  cases node with
  | absent | null | bool | number | string => trivial
  | array | object => cases single

theorem everywhere_absent (hole : holds .absent) : Everywhere holds .absent :=
  (everywhere_single_iff rfl).mpr hole

theorem Everywhere.mono {other : Node → Prop} (weaker : ∀ node, holds node → other node)
    {document : Node} (whole : Everywhere holds document) : Everywhere other document :=
  fun part occurs => weaker part (whole part occurs)

theorem everywhere_of_childwise {before after : Node → Prop} {change : Node → Node}
    (singles : ∀ node, node.isContainer = false → (change node).isContainer = false)
    (arrays : ∀ items, ∃ others, change (.array items) = .array others ∧
      ∀ item ∈ others, ∃ origin ∈ items, change origin = item)
    (objects : ∀ fields, ∃ others, change (.object fields) = .object others ∧
      ∀ field ∈ others, ∃ origin ∈ fields, change origin.2 = field.2)
    (each : ∀ node, before node → after (change node)) {node : Node}
    (whole : Everywhere before node) : Everywhere after (change node) := by
  induction node with
  | absent | null | bool | number | string =>
    exact (everywhere_single_iff (singles _ rfl)).mpr (each _ (whole _ .here))
  | array items inner =>
    obtain ⟨here, inside⟩ := everywhere_array_iff.mp whole
    obtain ⟨others, same, origins⟩ := arrays items
    refine everywhere_iff.mpr ⟨each _ here, ?_⟩
    rw [same]
    intro item member
    obtain ⟨origin, kept, changed⟩ := origins item member
    exact changed ▸ inner origin kept (inside origin kept)
  | object fields inner =>
    obtain ⟨here, inside⟩ := everywhere_object_iff.mp whole
    obtain ⟨others, same, origins⟩ := objects fields
    refine everywhere_iff.mpr ⟨each _ here, ?_⟩
    rw [same]
    intro field member
    obtain ⟨origin, kept, changed⟩ := origins field member
    exact changed ▸ inner origin kept (inside origin kept)

theorem Inside.slot {node : Node} (inside : Inside holds node) (hole : holds .absent)
    (token : Token) : Everywhere holds (node.slot token) := by
  cases node with
  | absent | null | bool | number | string => cases token <;> exact everywhere_absent hole
  | object fields =>
    cases token with
    | index position => exact everywhere_absent hole
    | key name =>
      show Everywhere holds ((Fields.get? name fields).getD .absent)
      cases found : Fields.get? name fields with
      | none => exact everywhere_absent hole
      | some child => exact inside _ (Fields.mem_of_get?_eq_some found)
  | array items =>
    cases token with
    | key name => exact everywhere_absent hole
    | index position =>
      show Everywhere holds (items[position.val]?.getD .absent)
      cases found : items[position.val]? with
      | none => exact everywhere_absent hole
      | some child => exact inside _ (List.mem_of_getElem? found)

theorem Everywhere.get? {node found : Node} {path : Path} (whole : Everywhere holds node)
    (hole : holds .absent) (held : node.get? path = some found) : Everywhere holds found := by
  induction path generalizing node with
  | nil =>
    obtain ⟨-, same⟩ := present?_eq_some_iff.mp held
    exact same ▸ whole
  | cons token rest ih =>
    rw [get?_cons, Option.bind_eq_some_iff] at held
    obtain ⟨child, stepped, below⟩ := held
    obtain ⟨present, same⟩ := child?_eq_some_iff.mp stepped
    subst same
    exact ih ((everywhere_iff.mp whole).2.slot hole token) below

theorem Inside.opened {node : Node} (inside : Inside holds node) (token : Token) :
    Inside holds (node.opened token) := by
  by_cases hole : node = .absent
  · subst hole
    cases token with
    | key name => exact fun field none => absurd none List.not_mem_nil
    | index position => exact fun item none => absurd none List.not_mem_nil
  · rw [opened_of_ne_absent hole]
    exact inside

theorem mem_padTo {length : Nat} {items : List Node} {item : Node}
    (member : item ∈ padTo length items) : item ∈ items ∨ item = .absent := by
  rcases List.mem_append.mp member with before | padding
  · exact Or.inl before
  · exact Or.inr (List.eq_of_mem_replicate padding)

theorem Inside.withSlot {node child : Node} (inside : Inside holds node) (hole : holds .absent)
    (inner : Everywhere holds child) (token : Token) :
    Inside holds (node.withSlot token child) := by
  refine withSlot_cases inside ?_ ?_
  · intro fields name same _ field member
    subst same
    rcases Fields.mem_put member with new | before
    · rw [new]
      exact inner
    · exact inside field before
  · intro items position same _ item member
    subst same
    rcases List.mem_or_eq_of_mem_set member with padded | new
    · rcases mem_padTo padded with before | padding
      · exact inside item before
      · rw [padding]
        exact everywhere_absent hole
    · rw [new]
      exact inner

theorem Everywhere.fill? {allowed : Token → Prop} {proper : Node → Prop} (hole : holds .absent)
    (grows : ∀ node token child, holds node → allowed token → node.obstruction? token = none →
      proper child → holds ((node.opened token).withSlot token child))
    (fitting : ∀ node token, node.fits token = true → proper node)
    {node value result : Node} {path : Path} (filled : node.fill? path value = some result)
    (whole : Everywhere holds node) (inner : Everywhere holds value) (sound : proper value)
    (tokens : ∀ token ∈ path, allowed token) : proper result ∧ Everywhere holds result := by
  induction path generalizing node result with
  | nil =>
    cases filled
    exact ⟨sound, inner⟩
  | cons token rest ih =>
    obtain ⟨clear, child, below, same⟩ := fill?_cons_eq_some_iff.mp filled
    subst same
    obtain ⟨here, inside⟩ := everywhere_iff.mp whole
    obtain ⟨childProper, childWhole⟩ := ih below (inside.slot hole token)
      (fun other later => tokens other (List.mem_cons_of_mem token later))
    have grown := grows node token child here (tokens token List.mem_cons_self) clear childProper
    have fit : ((node.opened token).withSlot token child).fits token = true := by
      rw [fits_withSlot]
      exact fits_of_clear clear
    exact ⟨fitting _ token fit,
      everywhere_iff.mpr ⟨grown, (inside.opened token).withSlot hole childWhole token⟩⟩

theorem everywhere_ground {document : Node} (hole : holds .absent)
    (whole : Everywhere holds document) : Everywhere holds document.ground := by
  by_cases null : document = .null
  · subst null
    exact everywhere_absent hole
  · rw [ground_of_ne_null null]
    exact whole

end

/-- Every name of an object stands for one field. -/
def DistinctNames : Node → Prop
  | .object fields => (Fields.names fields).Nodup
  | _ => True

theorem distinctNames_withSlot {node : Node} (distinct : node.DistinctNames) (token : Token)
    (child : Node) : ((node.opened token).withSlot token child).DistinctNames := by
  have opened : (node.opened token).DistinctNames := by
    refine holds_opened ?_ distinct
    cases token with
    | key name => exact List.nodup_nil
    | index position => trivial
  refine withSlot_cases opened ?_ (fun _ _ _ _ => trivial)
  intro fields name same _
  rw [same] at opened
  exact Fields.nodup_names_put opened name child

end DocPath.Node
