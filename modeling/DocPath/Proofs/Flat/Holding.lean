import DocPath.Proofs.Flat.Built
import DocPath.Proofs.Write.Failure
import DocPath.Proofs.Write.Frame

/-! What a partly built document holds. At every point of a build the document holds the entries
written so far, each as a leaf at its path, and nothing stands there that is not on the way to one of
them. So the next entry can be written exactly where the kinds agree and the indexes are within the
limit, and in the end the leaves of the document are the entries. -/

namespace DocPath

/-- The paths agree about kinds: behind no front one goes on with a key and another with an index. -/
def Path.Agreeing (paths : List Path) : Prop :=
  ∀ first ∈ paths, ∀ second ∈ paths, ∀ front token other,
    front ++ [token] <+: first → front ++ [other] <+: second → token.isKey = other.isKey

theorem Path.Agreeing.subset {paths others : List Path} (agreeing : Agreeing others)
    (among : paths ⊆ others) : Agreeing paths :=
  fun first firstIn second secondIn => agreeing first (among firstIn) second (among secondIn)

namespace Node

theorem leaf?_of_fits {node : Node} {token : Token} (fit : node.fits token = true) :
    node.leaf? = none := by
  rcases fits_iff.mp fit with ⟨fields, name, rfl, rfl⟩ | ⟨items, position, rfl, rfl⟩ <;> rfl

theorem leaf?_of_fill? {node value result : Node} {place path : Path}
    (filled : node.fill? path value = some result) (leads : place <+: path) (differ : place ≠ path) :
    (node.get? place).bind leaf? = none := by
  obtain ⟨back, split⟩ := leads
  subst split
  cases back with
  | nil => exact absurd (List.append_nil place).symm differ
  | cons token rest =>
    obtain ⟨fit, -⟩ := get?_fill?_front filled
    cases held : node.get? place with
    | none => rfl
    | some before =>
      rw [held, Option.getD_some] at fit
      by_cases hole : before = .absent
      · subst hole
        rfl
      · rw [opened_of_ne_absent hole] at fit
        exact leaf?_of_fits fit

theorem leaf?_get?_of_fill? {node result : Node} {path : Path} {value : Json}
    (single : (ofJson value).isContainer = false)
    (filled : node.fill? path (ofJson value) = some result) :
    (result.get? path).bind leaf? = some value := by
  have here := get?_fill?_append filled []
  rw [List.append_nil, get?_nil, present?_of_ne_absent (ofJson_ne_absent value)] at here
  rw [here]
  exact leaf?_ofJson single

theorem found_of_fill? {node value result found : Node} {path place : Path}
    (single : value.isContainer = false) (filled : node.fill? path value = some result)
    (held : result.get? place = some found) :
    place = path ∧ found = value ∨
      (∃ token, place ++ [token] <+: path ∧ found.fits token = true) ∨
      Path.Apart path place ∧ node.get? place = some found := by
  rcases Path.prefix_or_apart path place with ⟨back, split⟩ | ⟨back, split⟩ | away
  · subst split
    rw [get?_fill?_append filled] at held
    cases back with
    | nil => exact Or.inl ⟨List.append_nil path, (present?_eq_some_iff.mp held).2.symm⟩
    | cons token rest =>
      rw [get?_cons_of_not_container single] at held
      cases held
  · subst split
    cases back with
    | nil =>
      rw [List.append_nil] at filled ⊢
      have own := get?_fill?_append filled []
      rw [List.append_nil, held] at own
      exact Or.inl ⟨rfl, (present?_eq_some_iff.mp own.symm).2.symm⟩
    | cons token rest =>
      obtain ⟨fit, child, same⟩ := get?_fill?_front filled
      cases held.symm.trans same
      exact Or.inr (Or.inl ⟨token, ⟨rest, by simp⟩, (fits_withSlot _ token child token).trans fit⟩)
  · rw [get?_fill?_of_apart filled away] at held
    exact Or.inr (Or.inr ⟨away, held⟩)

theorem agreeing_of_found {paths : List Path} {document : Node}
    (found : ∀ path ∈ paths, document.get? path ≠ none) : Path.Agreeing paths := by
  have stepped : ∀ path ∈ paths, ∀ front token, front ++ [token] <+: path →
      ∃ container, document.get? front = some container ∧ container.fits token = true := by
    rintro path member front token ⟨back, split⟩
    obtain ⟨node, held⟩ := Option.ne_none_iff_exists'.mp (found path member)
    rw [← split, List.append_assoc] at held
    obtain ⟨container, above, fit, -⟩ := container_of_get? held
    exact ⟨container, above, fit⟩
  intro first firstIn second secondIn front token other firstLeads secondLeads
  obtain ⟨container, above, fit⟩ := stepped first firstIn front token firstLeads
  obtain ⟨again, same, otherFit⟩ := stepped second secondIn front other secondLeads
  cases above.symm.trans same
  exact isKey_eq_of_fits fit otherFit

/-- The document holds the entries as leaves, and nothing that is not on the way to one of them. -/
structure Holding (entries : List (Path × Json)) (document : Node) : Prop where
  found : ∀ entry ∈ entries, (document.get? entry.1).bind leaf? = some entry.2
  only : ∀ place, document.get? place ≠ none → ∃ entry ∈ entries, place <+: entry.1

theorem holding_absent : Holding [] .absent where
  found := fun _ none => absurd none List.not_mem_nil
  only := fun place present => absurd (get?_absent place) present

namespace Holding

variable {entries : List (Path × Json)} {document : Node}

theorem get?_eq_some (holding : Holding entries document) {entry : Path × Json}
    (member : entry ∈ entries) :
    ∃ leaf, document.get? entry.1 = some leaf ∧ leaf.leaf? = some entry.2 :=
  Option.bind_eq_some_iff.mp (holding.found entry member)

theorem ground_eq (holding : Holding entries document) {path : Path}
    (apart : ∀ entry ∈ entries, Path.Apart entry.1 path) : document.ground = document := by
  apply ground_of_ne_null
  intro null
  subst null
  obtain ⟨entry, member, -⟩ := holding.only [] (by simp [present?, isAbsent])
  obtain ⟨leaf, held, -⟩ := holding.get?_eq_some member
  have away := apart entry member
  cases place : entry.1 with
  | nil =>
    rw [place] at away
    exact Path.not_apart_nil path away
  | cons token rest =>
    rw [place, get?_cons_of_not_container rfl] at held
    cases held

theorem fill? (holding : Holding entries document) {path : Path} {value : Json} {result : Node}
    (single : (ofJson value).isContainer = false)
    (apart : ∀ entry ∈ entries, Path.Apart entry.1 path)
    (filled : document.fill? path (ofJson value) = some result) :
    Holding (entries ++ [(path, value)]) result where
  found := by
    intro entry member
    rcases List.mem_append.mp member with before | last
    · rw [get?_fill?_of_apart filled (apart entry before).symm]
      exact holding.found entry before
    · cases List.mem_singleton.mp last
      exact leaf?_get?_of_fill? single filled
  only := by
    intro place present
    have own : (path, value) ∈ entries ++ [(path, value)] :=
      List.mem_append_right _ List.mem_cons_self
    obtain ⟨node, held⟩ := Option.ne_none_iff_exists'.mp present
    rcases found_of_fill? single filled held with ⟨same, -⟩ | ⟨token, leads, -⟩ | ⟨-, before⟩
    · exact ⟨_, own, same ▸ List.prefix_refl place⟩
    · exact ⟨_, own, (List.prefix_append place [token]).trans leads⟩
    · obtain ⟨entry, member, leads⟩ := holding.only place (before ▸ Option.some_ne_none node)
      exact ⟨entry, List.mem_append_left _ member, leads⟩

theorem set (holding : Holding entries document) {path : Path} {value : Json} {result : Node}
    (single : (ofJson value).isContainer = false)
    (apart : ∀ entry ∈ entries, Path.Apart entry.1 path)
    (written : document.set path (ofJson value) = .ok result) :
    Holding (entries ++ [(path, value)]) result := by
  rw [set_eq_ok_iff, holding.ground_eq apart] at written
  exact holding.fill? single apart written

theorem setAll {later : List (Path × Json)} {result : Node} (holding : Holding entries document)
    (single : ∀ entry ∈ later, (ofJson entry.2).isContainer = false)
    (apart : (entries ++ later).Pairwise fun first second => Path.Apart first.1 second.1)
    (written : document.setAll (later.map asWrite) = .ok result) :
    Holding (entries ++ later) result := by
  induction later generalizing entries document with
  | nil =>
    cases written
    rw [List.append_nil]
    exact holding
  | cons entry rest ih =>
    rw [List.map_cons, setAll_cons, Except.bind_eq_ok_iff] at written
    obtain ⟨next, first, others⟩ := written
    have away : ∀ before ∈ entries, Path.Apart before.1 entry.1 := fun before member =>
      (List.pairwise_append.mp apart).2.2 before member entry List.mem_cons_self
    have grown := holding.set (single entry List.mem_cons_self) away first
    rw [List.append_cons] at apart ⊢
    exact ih grown (fun other member => single other (List.mem_cons_of_mem entry member)) apart others

theorem fits (holding : Holding entries document) {path : Path}
    (apart : ∀ entry ∈ entries, Path.Apart entry.1 path)
    (agreeing : Path.Agreeing (path :: entries.map Prod.fst)) {front back : Path} {token : Token}
    (split : path = front ++ token :: back) :
    (((document.get? front).getD .absent).opened token).fits token = true := by
  cases held : document.get? front with
  | none =>
    rw [Option.getD_none, opened_absent]
    exact fits_containerFor token
  | some container =>
    obtain ⟨entry, member, more, place⟩ := holding.only front (by rw [held]; exact Option.some_ne_none _)
    cases more with
    | nil =>
      rw [List.append_nil] at place
      exact absurd ⟨token :: back, place ▸ split.symm⟩ (apart entry member).1
    | cons other rest =>
      obtain ⟨leaf, found, -⟩ := holding.get?_eq_some member
      rw [← place] at found
      obtain ⟨stepped, same, fit, -⟩ := container_of_get? found
      have equal : container = stepped := Option.some.inj (held.symm.trans same)
      have kinds : token.isKey = other.isKey := by
        refine agreeing path List.mem_cons_self entry.1
          (List.mem_cons_of_mem path (List.mem_map_of_mem member)) front token other ?_ ?_
        · exact ⟨back, by rw [List.append_assoc]; exact split.symm⟩
        · exact ⟨rest, by rw [List.append_assoc]; exact place⟩
      rw [Option.getD_some, equal, opened_of_ne_absent (ne_absent_of_fits fit),
        fits_eq_of_isKey_eq kinds]
      exact fit

theorem set_error (holding : Holding entries document) {path : Path} {value : Node} {error : Error}
    (apart : ∀ entry ∈ entries, Path.Apart entry.1 path)
    (agreeing : Path.Agreeing (path :: entries.map Prod.fst))
    (failed : document.set path value = .error error) :
    error.category = .indexRange ∧ ¬Path.WithinLimit path := by
  obtain ⟨obstruction, stopped, rfl⟩ := set_eq_error_iff.mp failed
  rw [write, holding.ground_eq apart] at stopped
  obtain ⟨depth, position, rfl⟩ :=
    indexBeyondLimit_of_fits (fun _ _ _ => holding.fits apart agreeing) stopped
  obtain ⟨named, far, -⟩ := writeBelow_of_indexBeyondLimit stopped
  refine ⟨rfl, ?_⟩
  intro limit
  exact absurd (limit position (List.mem_of_getElem? named)) (Nat.not_le.mpr far)

theorem setAll_error {later : List (Path × Json)} {error : Error} (holding : Holding entries document)
    (single : ∀ entry ∈ later, (ofJson entry.2).isContainer = false)
    (apart : (entries ++ later).Pairwise fun first second => Path.Apart first.1 second.1)
    (agreeing : Path.Agreeing ((entries ++ later).map Prod.fst))
    (failed : document.setAll (later.map asWrite) = .error error) :
    error.category = .indexRange ∧ ∃ entry ∈ later, ¬Path.WithinLimit entry.1 := by
  induction later generalizing entries document with
  | nil => cases failed
  | cons entry rest ih =>
    have away : ∀ before ∈ entries, Path.Apart before.1 entry.1 := fun before member =>
      (List.pairwise_append.mp apart).2.2 before member entry List.mem_cons_self
    have agreeingHere : Path.Agreeing (entry.1 :: entries.map Prod.fst) :=
      agreeing.subset (by simp)
    rw [List.map_cons] at failed
    cases written : document.set (asWrite entry).1 (asWrite entry).2 with
    | error fault =>
      rw [setAll_cons_of_error written] at failed
      cases failed
      obtain ⟨category, beyond⟩ := holding.set_error away agreeingHere written
      exact ⟨category, entry, List.mem_cons_self, beyond⟩
    | ok next =>
      rw [setAll_cons_of_ok written] at failed
      have grown := holding.set (single entry List.mem_cons_self) away written
      rw [List.append_cons] at apart agreeing
      obtain ⟨category, last, member, beyond⟩ := ih grown
        (fun other member => single other (List.mem_cons_of_mem entry member)) apart agreeing failed
      exact ⟨category, last, List.mem_cons_of_mem entry member, beyond⟩

theorem exists_setAll {later : List (Path × Json)} (holding : Holding entries document)
    (single : ∀ entry ∈ later, (ofJson entry.2).isContainer = false)
    (apart : (entries ++ later).Pairwise fun first second => Path.Apart first.1 second.1)
    (agreeing : Path.Agreeing ((entries ++ later).map Prod.fst))
    (limit : ∀ entry ∈ later, Path.WithinLimit entry.1) :
    ∃ result, document.setAll (later.map asWrite) = .ok result := by
  cases written : document.setAll (later.map asWrite) with
  | ok result => exact ⟨result, rfl⟩
  | error error =>
    obtain ⟨-, entry, member, beyond⟩ := holding.setAll_error single apart agreeing written
    exact absurd (limit entry member) beyond

theorem agreeing (holding : Holding entries document) : Path.Agreeing (entries.map Prod.fst) := by
  apply agreeing_of_found
  intro path member none
  obtain ⟨entry, inside, rfl⟩ := List.mem_map.mp member
  obtain ⟨leaf, held, -⟩ := holding.get?_eq_some inside
  rw [none] at held
  cases held

theorem withinLimit (holding : Holding entries document) (built : Everywhere Built document) :
    ∀ entry ∈ entries, Path.WithinLimit entry.1 := by
  intro entry member position occurs
  obtain ⟨front, back, split⟩ := List.append_of_mem occurs
  obtain ⟨leaf, held, -⟩ := holding.get?_eq_some member
  rw [split] at held
  obtain ⟨container, found, fit, present⟩ := container_of_get? held
  have here := (built.get? built_absent found _ .here).1
  rcases fits_iff.mp fit with ⟨fields, name, -, same⟩ | ⟨items, place, rfl, same⟩
  · cases same
  · have within := lt_length_of_slot present
    have short := here.2.1
    omega

theorem leaves_perm (holding : Holding entries document) (addressable : Everywhere Addressable document)
    (apart : entries.Pairwise fun first second => Path.Apart first.1 second.1) :
    document.leaves.Perm entries := by
  apply (List.perm_ext_iff_of_nodup (Path.nodup_of_apart (pairwise_apart_leaves addressable))
    (Path.nodup_of_apart apart)).mpr
  intro leaf
  rw [mem_leaves_iff addressable]
  constructor
  · intro found
    obtain ⟨node, held, value⟩ := Option.bind_eq_some_iff.mp found
    obtain ⟨entry, member, back, split⟩ :=
      holding.only leaf.1 (by rw [held]; exact Option.some_ne_none _)
    obtain ⟨other, otherHeld, otherValue⟩ := holding.get?_eq_some member
    rw [← split] at otherHeld
    cases back with
    | nil =>
      rw [List.append_nil] at split otherHeld
      cases held.symm.trans otherHeld
      have same : leaf = entry := Prod.ext split (Option.some.inj (value.symm.trans otherValue))
      exact same ▸ member
    | cons token rest =>
      obtain ⟨container, same, fit, -⟩ := container_of_get? otherHeld
      cases held.symm.trans same
      rw [leaf?_of_fits fit] at value
      cases value
  · exact holding.found leaf

end Holding
end Node
end DocPath
