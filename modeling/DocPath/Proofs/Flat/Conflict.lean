import DocPath.Proofs.Flat.Holding

/-! Entries that disagree about the kind of a node. A write checks the containers on its way but not the
node it replaces, so whether a disagreement stops a build depends on the order of the entries: an entry
is stopped by an earlier one that put a leaf on its way or made a container of the other kind there,
while an entry at a prefix of an earlier path takes the place of what was built below it. An entry for
the root takes the place of everything before it. -/

namespace DocPath

/-- Behind a shared front one path goes on with a key and the other one with an index. -/
def Path.Diverging (path other : Path) : Prop :=
  ∃ front token next, front ++ [token] <+: path ∧ front ++ [next] <+: other ∧
    token.isKey ≠ next.isKey

namespace FlatMap

/-- The earlier entry is in the way of the later one: the later path leads on from its leaf, or takes a
container for one of the other kind. A null at the root is in nobody's way. -/
def Blocks (earlier later : Path × Json) : Prop :=
  earlier.1 <+: later.1 ∧ earlier.1 ≠ later.1 ∧ earlier ≠ ([], .null) ∨
    Path.Diverging earlier.1 later.1

/-- The entry is in the list, and no entry for the root comes after it. -/
def Standing (entry : Path × Json) (entries : List (Path × Json)) : Prop :=
  ∃ before after, entries = before ++ entry :: after ∧ ∀ other ∈ after, other.1 ≠ []

/-- One of the entries meets an earlier one that is in its way. -/
def Conflicting (entries : List (Path × Json)) : Prop :=
  ∃ before later after, entries = before ++ later :: after ∧
    ∃ earlier, Standing earlier before ∧ Blocks earlier later

theorem not_standing_nil (entry : Path × Json) : ¬Standing entry [] := by
  rintro ⟨before, after, split, -⟩
  simp at split

theorem standing_concat_iff {entry last : Path × Json} {entries : List (Path × Json)} :
    Standing entry (entries ++ [last]) ↔ entry = last ∨ Standing entry entries ∧ last.1 ≠ [] := by
  constructor
  · rintro ⟨before, after, split, later⟩
    rcases List.eq_nil_or_concat after with none | ⟨init, final, same⟩
    · rw [none] at split
      exact Or.inl (List.append_inj_right' split rfl |> List.cons.inj |>.1).symm
    · rw [same, List.concat_eq_append, ← List.cons_append, ← List.append_assoc] at split
      obtain ⟨front, back⟩ := List.append_inj' split rfl
      rw [same, List.concat_eq_append] at later
      refine Or.inr ⟨⟨before, init, front, fun other member => later other ?_⟩, ?_⟩
      · exact List.mem_append_left _ member
      · exact List.singleton_inj.mp back ▸ later final (List.mem_append_right _ List.mem_cons_self)
  · rintro (same | ⟨⟨before, after, split, later⟩, notRoot⟩)
    · exact ⟨entries, [], by rw [same], fun _ none => absurd none List.not_mem_nil⟩
    · refine ⟨before, after ++ [last], by rw [split]; simp, ?_⟩
      intro other member
      rcases List.mem_append.mp member with before | final
      · exact later other before
      · exact List.mem_singleton.mp final ▸ notRoot

end FlatMap

namespace Node
open FlatMap

theorem not_diverging_of_fill? {node value result : Node} {path place : Path}
    (filled : node.fill? path value = some result) (stood : node.get? place ≠ none) :
    ¬Path.Diverging place path := by
  rintro ⟨front, token, next, ⟨back, split⟩, ⟨rest, way⟩, kinds⟩
  obtain ⟨found, held⟩ := Option.ne_none_iff_exists'.mp stood
  rw [← split, List.append_assoc] at held
  obtain ⟨container, above, fit, -⟩ := container_of_get? held
  rw [← way, List.append_assoc] at filled
  obtain ⟨other, -⟩ := get?_fill?_front filled
  rw [above, Option.getD_some, opened_of_ne_absent (ne_absent_of_fits fit)] at other
  exact kinds (isKey_eq_of_fits fit other)

/-- What a build knows of the entries so far. Each one that stands leads through or to a leaf, and
whatever a write can meet was put there by one of them. -/
structure Tracks (entries : List (Path × Json)) (document : Node) : Prop where
  led : ∀ entry, Standing entry entries → entry ≠ ([], .null) →
    ∃ place, place <+: entry.1 ∧ (document.ground.get? place).bind leaf? ≠ none
  made : ∀ place node, document.ground.get? place = some node → ∃ entry, Standing entry entries ∧
    (entry.1 = place ∧ node.leaf? = some entry.2 ∨
      ∃ token, place ++ [token] <+: entry.1 ∧ node.fits token = true)

theorem tracks_absent : Tracks [] .absent where
  led := fun entry standing => absurd standing (not_standing_nil entry)
  made := by
    intro place node held
    rw [show Node.absent.ground = .absent from rfl, get?_absent] at held
    cases held

namespace Tracks

variable {entries : List (Path × Json)} {document : Node}

theorem root {value : Json} (single : (ofJson value).isContainer = false) :
    Tracks (entries ++ [([], value)]) (ofJson value) where
  led := by
    intro entry standing present
    rcases standing_concat_iff.mp standing with same | ⟨-, notRoot⟩
    · subst same
      have value : ofJson value ≠ .null := by
        intro null
        have held := leaf?_ofJson single
        rw [null] at held
        exact present (congrArg (Prod.mk []) (Option.some.inj held).symm)
      refine ⟨[], List.nil_prefix, ?_⟩
      rw [ground_of_ne_null value, get?_nil, present?_of_ne_absent (ofJson_ne_absent _),
        Option.bind_some, leaf?_ofJson single]
      exact Option.some_ne_none _
    · exact absurd rfl notRoot
  made := by
    intro place node held
    refine ⟨_, standing_concat_iff.mpr (Or.inl rfl), Or.inl ?_⟩
    have value : ofJson value ≠ .null := by
      intro null
      rw [null, show Node.null.ground = .absent from rfl, get?_absent] at held
      cases held
    rw [ground_of_ne_null value] at held
    cases place with
    | nil =>
      obtain ⟨-, same⟩ := present?_eq_some_iff.mp held
      exact ⟨rfl, same ▸ leaf?_ofJson single⟩
    | cons token rest =>
      rw [get?_cons_of_not_container single] at held
      cases held

theorem below (tracks : Tracks entries document) {path : Path} {value : Json} {result : Node}
    (notRoot : path ≠ []) (single : (ofJson value).isContainer = false)
    (filled : document.ground.fill? path (ofJson value) = some result) :
    Tracks (entries ++ [(path, value)]) result := by
  have here : (result.get? path).bind leaf? ≠ none := by
    rw [leaf?_get?_of_fill? single filled]
    exact Option.some_ne_none value
  constructor
  · intro entry standing present
    rw [ground_of_fill? notRoot filled]
    rcases standing_concat_iff.mp standing with same | ⟨before, -⟩
    · subst same
      exact ⟨path, List.prefix_refl path, here⟩
    · obtain ⟨place, leads, leaf⟩ := tracks.led entry before present
      rcases Path.prefix_or_apart path place with ahead | way | away
      · exact ⟨path, ahead.trans leads, here⟩
      · by_cases same : place = path
        · exact ⟨path, same ▸ leads, here⟩
        · exact absurd (leaf?_of_fill? filled way same) leaf
      · exact ⟨place, leads, by rw [get?_fill?_of_apart filled away]; exact leaf⟩
  · intro place node held
    rw [ground_of_fill? notRoot filled] at held
    rcases found_of_fill? single filled held with ⟨same, value⟩ | way | ⟨-, before⟩
    · exact ⟨_, standing_concat_iff.mpr (Or.inl rfl), Or.inl ⟨same.symm, value ▸ leaf?_ofJson single⟩⟩
    · exact ⟨_, standing_concat_iff.mpr (Or.inl rfl), Or.inr way⟩
    · obtain ⟨entry, standing, how⟩ := tracks.made place node before
      exact ⟨entry, standing_concat_iff.mpr (Or.inr ⟨standing, notRoot⟩), how⟩

theorem set (tracks : Tracks entries document) {entry : Path × Json} {result : Node}
    (single : (ofJson entry.2).isContainer = false)
    (written : document.set entry.1 (ofJson entry.2) = .ok result) :
    Tracks (entries ++ [entry]) result := by
  obtain ⟨path, value⟩ := entry
  have filled := set_eq_ok_iff.mp written
  by_cases isRoot : path = []
  · subst isRoot
    cases filled
    exact root single
  · exact tracks.below isRoot single filled

theorem not_blocks (tracks : Tracks entries document) {entry : Path × Json} {value result : Node}
    (filled : document.ground.fill? entry.1 value = some result) :
    ¬∃ earlier, Standing earlier entries ∧ Blocks earlier entry := by
  rintro ⟨earlier, standing, ⟨leads, differ, present⟩ | ⟨front, token, next, leads, goes, kinds⟩⟩
  · obtain ⟨place, within, leaf⟩ := tracks.led earlier standing present
    refine leaf (leaf?_of_fill? filled (within.trans leads) ?_)
    intro same
    exact differ (leads.eq_of_length_le (same ▸ within.length_le))
  · have present : earlier ≠ ([], .null) := by
      rintro rfl
      exact absurd (List.prefix_nil.mp leads) (by simp)
    obtain ⟨place, within, leaf⟩ := tracks.led earlier standing present
    have stood : document.ground.get? place ≠ none := fun none => leaf (by rw [none]; rfl)
    have aside : ¬front ++ [token] <+: place := fun behind =>
      not_diverging_of_fill? filled stood ⟨front, token, next, behind, goes, kinds⟩
    have before : place <+: front := by
      rcases List.prefix_or_prefix_of_prefix within leads with onto | behind
      · rcases List.prefix_concat_iff.mp onto with same | before
        · exact absurd (same ▸ List.prefix_refl _) aside
        · exact before
      · exact absurd behind aside
    refine leaf (leaf?_of_fill? filled ((before.trans (List.prefix_append front [next])).trans goes) ?_)
    intro same
    have longer := goes.length_le
    have shorter := before.length_le
    rw [same] at shorter
    rw [List.length_append, List.length_singleton] at longer
    omega

theorem fits (tracks : Tracks entries document) {entry : Path × Json}
    (free : ¬∃ earlier, Standing earlier entries ∧ Blocks earlier entry) {front back : Path}
    {token : Token} (split : entry.1 = front ++ token :: back) :
    (((document.ground.get? front).getD .absent).opened token).fits token = true := by
  cases held : document.ground.get? front with
  | none => exact fits_containerFor token
  | some node =>
    obtain ⟨earlier, standing, ⟨same, leaf⟩ | ⟨next, leads, fit⟩⟩ := tracks.made front node held
    · refine absurd ⟨earlier, standing, Or.inl ⟨?_, ?_, ?_⟩⟩ free
      · rw [same, split]
        exact List.prefix_append front _
      · rw [same, split]
        simp
      · rintro rfl
        subst same
        obtain ⟨-, equal⟩ := present?_eq_some_iff.mp held
        have null : Node.null = node := by
          rw [← ofJson_of_leaf? leaf]
          simp [ofJson]
        exact ground_ne_null document (equal.trans null.symm)
    · have kinds : next.isKey = token.isKey := Decidable.by_contra fun differ =>
        free ⟨earlier, standing, Or.inr ⟨front, next, token, leads, ⟨back, by simp [split]⟩, differ⟩⟩
      rw [Option.getD_some, opened_of_ne_absent (ne_absent_of_fits fit), ← fits_eq_of_isKey_eq kinds]
      exact fit

theorem set_error_iff (tracks : Tracks entries document) {entry : Path × Json}
    (limit : Path.WithinLimit entry.1) :
    (∃ error, document.set entry.1 (ofJson entry.2) = .error error) ↔
      ∃ earlier, Standing earlier entries ∧ Blocks earlier entry := by
  constructor
  · rintro ⟨error, failed⟩
    by_contra free
    obtain ⟨obstruction, stopped, -⟩ := set_eq_error_iff.mp failed
    obtain ⟨depth, position, same⟩ :=
      indexBeyondLimit_of_fits (fun _ _ _ split => tracks.fits free split) stopped
    exact ne_indexBeyondLimit limit depth position (stopped.trans (congrArg some same))
  · intro blocked
    cases written : document.set entry.1 (ofJson entry.2) with
    | error error => exact ⟨error, rfl⟩
    | ok result => exact absurd blocked (tracks.not_blocks (set_eq_ok_iff.mp written))

/-- A run of writes is stopped exactly if one of the entries meets an earlier one that is in its way. -/
theorem setAll_error_iff {later : List (Path × Json)} (tracks : Tracks entries document)
    (single : ∀ entry ∈ later, (ofJson entry.2).isContainer = false)
    (limit : ∀ entry ∈ later, Path.WithinLimit entry.1) :
    (∃ error, document.setAll (later.map asWrite) = .error error) ↔
      ∃ before entry after, later = before ++ entry :: after ∧
        ∃ earlier, Standing earlier (entries ++ before) ∧ Blocks earlier entry := by
  induction later generalizing entries document with
  | nil =>
    constructor
    · rintro ⟨error, failed⟩
      cases failed
    · rintro ⟨before, entry, after, split, -⟩
      simp at split
  | cons entry rest ih =>
    have stops := tracks.set_error_iff (limit entry List.mem_cons_self)
    rw [List.map_cons]
    cases written : document.set (asWrite entry).1 (asWrite entry).2 with
    | error error =>
      rw [setAll_cons_of_error written]
      refine iff_of_true ⟨error, rfl⟩ ?_
      obtain ⟨earlier, standing, blocks⟩ := stops.mp ⟨error, written⟩
      exact ⟨[], entry, rest, rfl, earlier, by rwa [List.append_nil], blocks⟩
    | ok next =>
      have grown := tracks.set (single entry List.mem_cons_self) written
      have onward := ih grown (fun other member => single other (List.mem_cons_of_mem entry member))
        (fun other member => limit other (List.mem_cons_of_mem entry member))
      rw [setAll_cons_of_ok written, onward]
      constructor
      · rintro ⟨before, other, after, split, earlier, standing, blocks⟩
        exact ⟨entry :: before, other, after, by rw [split]; rfl, earlier,
          by rwa [List.append_cons], blocks⟩
      · rintro ⟨before, other, after, split, earlier, standing, blocks⟩
        cases before with
        | nil =>
          obtain ⟨here, -⟩ := List.cons.inj split
          rw [List.append_nil] at standing
          obtain ⟨error, failed⟩ := stops.mpr ⟨earlier, standing, here ▸ blocks⟩
          exact nomatch written.symm.trans failed
        | cons first before =>
          obtain ⟨here, onwards⟩ := List.cons.inj split
          rw [← here, List.append_cons] at standing
          exact ⟨before, other, after, onwards, earlier, standing, blocks⟩

end Tracks

theorem category_of_setAll {document : Node} {writes : List (Path × Node)} {error : Error}
    (limit : ∀ write ∈ writes, Path.WithinLimit write.1)
    (failed : document.setAll writes = .error error) : error.category = .typeMismatch := by
  induction writes generalizing document with
  | nil => cases failed
  | cons write rest ih =>
    cases written : document.set write.1 write.2 with
    | ok next =>
      rw [setAll_cons_of_ok written] at failed
      exact ih (fun other member => limit other (List.mem_cons_of_mem write member)) failed
    | error fault =>
      rw [setAll_cons_of_error written] at failed
      cases failed
      obtain ⟨obstruction, stopped, same⟩ := set_eq_error_iff.mp written
      subst same
      cases obstruction with
      | kindMismatch depth token found => rfl
      | indexBeyondLimit depth position =>
        exact absurd stopped (ne_indexBeyondLimit (limit write List.mem_cons_self) depth position)

end Node

namespace FlatMap

/-- Building a flat map of single values fails exactly if one of its entries meets an earlier one that is
in its way, and then for a wrong kind. Which entries these are depends on the order of the map and not on
compaction. -/
theorem build_error_iff_conflicting {flat : FlatMap} {entries : List (Path × Json)}
    (read : locate flat.entries = .ok entries)
    (single : ∀ entry ∈ entries, (Node.ofJson entry.2).isContainer = false)
    (limit : ∀ entry ∈ entries, Path.WithinLimit entry.1) (compact : Bool) :
    ((∃ error, flat.build compact = .error error) ↔ Conflicting entries) ∧
      ∀ error, flat.build compact = .error error → error.category = .typeMismatch := by
  simp only [build_eq_error_iff read]
  refine ⟨Node.tracks_absent.setAll_error_iff single limit, fun error failed => ?_⟩
  refine Node.category_of_setAll ?_ failed
  intro write member
  obtain ⟨entry, inside, same⟩ := List.mem_map.mp member
  exact same ▸ limit entry inside

theorem build_of_two_kinds :
    let flat : FlatMap := ⟨[("a[0]", .null), ("b", .bool true), ("a.c", .null)], by decide⟩
    ∀ compact, ∃ error, flat.build compact = .error error ∧ error.category = .typeMismatch := by
  intro flat compact
  have read : locate flat.entries = .ok [([.key "a", .index 0], .null), ([.key "b"], .bool true),
      ([.key "a", .key "c"], .null)] := rfl
  obtain ⟨fails, mismatch⟩ := build_error_iff_conflicting read
    (by simp [Node.ofJson, Node.isContainer, Node.isArray, Node.isObject])
    (by simp [Path.WithinLimit]) compact
  have conflict : Conflicting _ := ⟨[([.key "a", .index 0], .null), ([.key "b"], .bool true)],
    ([.key "a", .key "c"], .null), [], rfl, ([.key "a", .index 0], .null),
    ⟨[], [([.key "b"], .bool true)], rfl, by simp⟩,
    Or.inr ⟨[.key "a"], .index 0, .key "c", by decide, by decide, by decide⟩⟩
  obtain ⟨error, failed⟩ := fails.mpr conflict
  exact ⟨error, failed, mismatch error failed⟩

/-- The two entries take one node for an object and for a text. The longer path comes first, so the
later entry replaces the object and nothing stops the build. -/
theorem build_drops_longer_path :
    let flat : FlatMap := ⟨[("a.b", .string "x"), ("a", .string "y")], by decide⟩
    let longer := [Token.key "a", .key "b"]
    let shorter := [Token.key "a"]
    (locate flat.entries = .ok [(longer, .string "x"), (shorter, .string "y")] ∧
      Path.WithinLimit longer ∧ Path.WithinLimit shorter ∧
      shorter ≠ [] ∧ shorter <+: longer ∧ shorter ≠ longer) ∧
    ∀ compact, flat.build compact = .ok (.object [("a", .string "y")]) := by
  intro flat longer shorter
  have read : locate flat.entries = .ok [(longer, .string "x"), (shorter, .string "y")] := rfl
  refine ⟨⟨read, by simp [longer, Path.WithinLimit], by simp [shorter, Path.WithinLimit], by decide,
    by decide, by decide⟩, ?_⟩
  intro compact
  refine (build_eq_ok_iff_of_located read (List.cons_ne_nil _ _)).mpr
    ⟨.object [("a", .string "y")], ?_, ?_⟩
  · simp only [List.map_cons, List.map_nil, Node.asWrite, Node.ofJson]
    rfl
  · cases compact <;> simp [Node.compact]

end FlatMap
end DocPath
