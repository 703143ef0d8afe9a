import DocPath.Proofs.Document.Clean
import DocPath.Proofs.Write.Checked

/-! How far writes can stretch arrays. An array that was there may be longer than any write would make it,
and writes leave it so; but no array, at whatever depth, is brought beyond the largest index, also where a
write is stopped behind an array that it has padded. -/

namespace DocPath.Node

/-- The items of the array at a place; none where there is no array. -/
def itemsAt (document : Node) (place : Path) : List Node :=
  ((document.get? place).bind Node.items?).getD []

/-- An array has so many items at most. -/
def AtMost (bound : Nat) : Node → Prop
  | .array items => items.length ≤ bound
  | _ => True

/-- The document after writes one after another, of which some may be stopped on their way. -/
def afterWrites (document : Node) (writes : List (Path × Node)) : Node :=
  writes.foldl (fun document write => (document.write write.1 write.2).document) document

theorem itemsAt_cons (node : Node) (token : Token) (rest : Path) :
    node.itemsAt (token :: rest) = (node.slot token).itemsAt rest := by
  rw [itemsAt, get?_cons_eq, itemsAt]

theorem itemsAt_opened (node : Node) (token : Token) (place : Path) :
    (node.opened token).itemsAt place = node.itemsAt place := by
  cases place with
  | nil =>
    by_cases hole : node = .absent
    · subst hole
      cases token <;> rfl
    · rw [opened_of_ne_absent hole]
  | cons first rest => rw [itemsAt_cons, itemsAt_cons, slot_opened]

theorem itemsAt_ground (document : Node) (place : Path) :
    document.ground.itemsAt place = document.itemsAt place := by
  cases place with
  | nil => cases document <;> rfl
  | cons first rest => rw [itemsAt, itemsAt, get?_ground_cons]

theorem length_padTo_of_clear {node : Node} {items : List Node} {position : Index}
    (clear : node.obstruction? (.index position) = none)
    (container : node.opened (.index position) = .array items) :
    (padTo (position.val + 1) items).length ≤ max items.length (maxArrayIndex + 1) := by
  have reach : reaches items.length position = true := by
    by_contra stopped
    unfold obstruction? at clear
    rw [container] at clear
    simp [stopped] at clear
  rw [reaches_iff] at reach
  rw [length_padTo]
  omega

theorem length_itemsAt_withSlot_le {node : Node} {token : Token} (clear : node.obstruction? token = none)
    (child : Node) :
    (((node.opened token).withSlot token child).itemsAt []).length ≤
      max (node.itemsAt []).length (maxArrayIndex + 1) := by
  rw [← itemsAt_opened node token []]
  obtain ⟨fields, name, container, key⟩ | ⟨items, position, container, index⟩ :=
    fits_iff.mp (fits_of_clear clear)
  · rw [container, key]
    exact Nat.zero_le _
  · subst index
    rw [container]
    show (List.set _ _ _).length ≤ max items.length _
    rw [List.length_set]
    exact length_padTo_of_clear clear container

theorem atMost_withSlot {bound : Nat} (enough : maxArrayIndex + 1 ≤ bound) {node : Node} {token : Token}
    (short : node.AtMost bound) (clear : node.obstruction? token = none) (child : Node) :
    ((node.opened token).withSlot token child).AtMost bound := by
  have opened : (node.opened token).AtMost bound := by
    refine holds_opened ?_ short
    cases token with
    | key name => trivial
    | index position => exact Nat.zero_le bound
  refine withSlot_cases opened (fun _ _ _ _ => trivial) ?_
  intro items position container index
  subst index
  rw [container] at opened
  show (List.set _ _ _).length ≤ bound
  rw [List.length_set]
  exact Nat.le_trans (length_padTo_of_clear clear container) (Nat.max_le.mpr ⟨opened, enough⟩)

theorem length_itemsAt_writeBelow_le {node value : Node} {path place : Path}
    (outside : (writeBelow value path node).obstruction = none → ¬path <+: place) :
    ((writeBelow value path node).document.itemsAt place).length ≤
      max (node.itemsAt place).length (maxArrayIndex + 1) := by
  induction path generalizing node place with
  | nil => exact absurd List.nil_prefix (outside rfl)
  | cons token rest ih =>
    cases blocked : node.obstruction? token with
    | some obstruction =>
      rw [writeBelow_of_obstructed blocked, itemsAt_opened]
      exact Nat.le_max_left _ _
    | none =>
      rw [writeBelow_of_clear blocked] at outside ⊢
      cases place with
      | nil => exact length_itemsAt_withSlot_le blocked _
      | cons first others =>
        rw [itemsAt_cons, itemsAt_cons]
        by_cases same : first = token
        · subst same
          rw [slot_withSlot_self (fits_of_clear blocked)]
          apply ih
          intro finished inside
          exact outside (by rw [finished]; rfl) ((List.prefix_cons_inj first).mpr inside)
        · rw [slot_withSlot_of_ne same, slot_opened]
          exact Nat.le_max_left _ _

theorem everywhere_atMost_write {bound : Nat} (enough : maxArrayIndex + 1 ≤ bound)
    {document value : Node} {path : Path} (short : Everywhere (AtMost bound) document)
    (inner : (document.write path value).obstruction = none → Everywhere (AtMost bound) value) :
    Everywhere (AtMost bound) (document.write path value).document := by
  have finished : ∀ {place : Path} {put result : Node}, document.set place put = .ok result →
      Everywhere (AtMost bound) put → Everywhere (AtMost bound) result := by
    intro place put result written whole
    have filled := set_eq_ok_iff.mp written
    exact (Everywhere.fill? trivial (fun _ _ child here _ clear _ => atMost_withSlot enough here clear child)
      (fun _ _ _ => trivial) filled (everywhere_ground trivial short) whole trivial
      (fun _ _ => trivial)).2
  obtain unchanged | written | ⟨depth, made⟩ := write_cases document path value
  · rw [unchanged]
    exact short
  · exact finished written (inner (exists_set_iff.mp ⟨_, written⟩))
  · apply finished made
    exact everywhere_array_iff.mpr ⟨Nat.zero_le bound, fun _ none => absurd none List.not_mem_nil⟩

theorem everywhere_atMost_of_not_container {node : Node} (single : node.isContainer = false) (bound : Nat) :
    Everywhere (AtMost bound) node := by
  rw [everywhere_single_iff single]
  cases node with
  | absent | null | bool | number | string => trivial
  | array | object => cases single

theorem everywhere_atMost_afterWrites {document : Node}
    (short : Everywhere (AtMost (maxArrayIndex + 1)) document) {writes : List (Path × Node)}
    (single : ∀ write ∈ writes, write.2.isContainer = false) :
    Everywhere (AtMost (maxArrayIndex + 1)) (document.afterWrites writes) := by
  unfold afterWrites
  induction writes generalizing document with
  | nil => exact short
  | cons write rest ih =>
    have inner := everywhere_atMost_of_not_container (single write List.mem_cons_self) (maxArrayIndex + 1)
    have next : Everywhere (AtMost (maxArrayIndex + 1)) (document.write write.1 write.2).document :=
      everywhere_atMost_write (Nat.le_refl _) short fun _ => inner
    exact ih next fun other member => single other (List.mem_cons_of_mem write member)

theorem Copyable.atMost {compact : Bool} {node : Node} (copyable : node.Copyable compact) :
    node.AtMost (maxArrayIndex + 1) := by
  cases node with
  | absent | null | bool | number | string | object => trivial
  | array items => exact copyable.2.1

/-- Whether it goes through or is stopped, a write leaves every array outside its value as long as it was, or
within the limit where it was shorter or is new; and whatever bound above the limit the arrays of the document
and of the value keep at every depth, those of what it leaves keep too. The same write done step by step, with
lengths of 64 bits and lookups that may miss, never misses, and it is stopped at a token of its path. A run of
writes that begins with null and puts in no containers has no array beyond the limit at any depth, and neither
has a document that is built from such values. -/
theorem writes_stay_in_bounds (document : Node) (path : Path) (value : Node) :
    (∀ place, ((document.write path value).obstruction = none → ¬path <+: place) →
      ((document.write path value).document.itemsAt place).length ≤
        max (document.itemsAt place).length (maxArrayIndex + 1)) ∧
    (∀ bound, maxArrayIndex + 1 ≤ bound → Everywhere (AtMost bound) document →
      ((document.write path value).obstruction = none → Everywhere (AtMost bound) value) →
        Everywhere (AtMost bound) (document.write path value).document) ∧
    document.checkedWrite? path value = some (document.write path value) ∧
    (∀ obstruction, (document.write path value).obstruction = some obstruction →
      obstruction.depth < path.length) ∧
    (∀ writes : List (Path × Node), (∀ write ∈ writes, write.2.isContainer = false) →
      Everywhere (AtMost (maxArrayIndex + 1)) (null.afterWrites writes)) ∧
    ∀ (flat : FlatMap) (compact : Bool) (result : Node),
      (∀ entry ∈ flat.entries, (ofJson entry.2).isContainer = false) →
        flat.build compact = .ok result → Everywhere (AtMost (maxArrayIndex + 1)) result := by
  refine ⟨?_, fun bound enough => everywhere_atMost_write enough,
    checkedWrite?_eq document path value, ?_, ?_, ?_⟩
  · intro place outside
    have bounded := length_itemsAt_writeBelow_le outside
    rw [itemsAt_ground] at bounded
    exact bounded
  · intro obstruction stopped
    exact (obstruction_write_eq_some_iff.mp stopped).inTheWay.depth_lt
  · intro writes single
    have begun : Everywhere (AtMost (maxArrayIndex + 1)) null := everywhere_atMost_of_not_container rfl _
    exact everywhere_atMost_afterWrites begun single
  · intro flat compact result single built
    obtain ⟨-, whole⟩ := built_of_build single built
    exact whole.mono fun node parts => parts.1.atMost

theorem writes_stay_in_bounds_at_last_index :
    let long := List.replicate 1048580 null
    let document := object [("a", array [bool true]), ("b", array long)]
    let path := [Token.key "a", .index 2, .index 0xffffffffffffffff]
    let left := object [("a", array [bool true, absent, array []]), ("b", array long)]
    let writes := [(path, null), ([.key "a", .index 1], string "x")]
    let flat := FlatMap.ofList [("a[2]", .string "x")]
    let built := object [("a", array [absent, absent, string "x"])]
    document.write path null = ⟨left, some (.indexBeyondLimit 2 0xffffffffffffffff)⟩ ∧
      (∀ name, (left.itemsAt [.key name]).length ≤
        max (document.itemsAt [.key name]).length (maxArrayIndex + 1)) ∧
      Everywhere (AtMost 1048580) document ∧ Everywhere (AtMost 1048580) left ∧
      document.checkedWrite? path null = some (document.write path null) ∧
      Everywhere (AtMost (maxArrayIndex + 1)) (null.afterWrites writes) ∧
      flat.build false = .ok built ∧ Everywhere (AtMost (maxArrayIndex + 1)) built := by
  intro long document path left writes flat built
  have stopped : ∀ items, (object [("a", array [bool true]), ("b", array items)]).write path null =
      ⟨object [("a", array [bool true, absent, array []]), ("b", array items)],
        some (.indexBeyondLimit 2 0xffffffffffffffff)⟩ := fun items => rfl
  have made : document.write path null = ⟨left, some (.indexBeyondLimit 2 0xffffffffffffffff)⟩ := stopped long
  obtain ⟨arrays, bounded, checked, -, runs, builds⟩ := writes_stay_in_bounds document path null
  rw [made] at arrays bounded
  have short : Everywhere (AtMost 1048580) (array [bool true]) := by
    simp [everywhere_array_iff, everywhere_single_iff, isContainer, isArray, isObject, AtMost]
  have full : Everywhere (AtMost 1048580) (array long) := by
    refine everywhere_array_iff.mpr ⟨Nat.le_of_eq List.length_replicate, fun item member => ?_⟩
    rw [List.eq_of_mem_replicate member]
    exact everywhere_atMost_of_not_container rfl _
  have lengths : Everywhere (AtMost 1048580) document :=
    everywhere_object_iff.mpr ⟨trivial, by simp [short, full]⟩
  have within : maxArrayIndex + 1 ≤ 1048580 := by decide
  have single : ∀ write ∈ writes, write.2.isContainer = false := by
    simp [writes, isContainer, isArray, isObject]
  have singleEntries : ∀ entry ∈ flat.entries, (ofJson entry.2).isContainer = false := by
    simp [flat, FlatMap.ofList, FlatMap.insert, Fields.put, FlatMap.empty, ofJson, isContainer, isArray,
      isObject]
  have read : FlatMap.locate flat.entries = .ok [([.key "a", .index 2], .string "x")] := rfl
  have written : absent.setAll ([([Token.key "a", .index 2], Json.string "x")].map asWrite) = .ok built := by
    simp only [List.map_cons, List.map_nil, asWrite, ofJson]
    rfl
  have done : flat.build false = .ok built :=
    (FlatMap.build_eq_ok_iff_of_located read (List.cons_ne_nil _ _)).mpr ⟨built, written, rfl⟩
  refine ⟨made, ?_, lengths, ?_, checked, runs writes single, done,
    builds flat false built singleEntries done⟩
  · intro name
    apply arrays [.key name]
    intro finished
    cases finished
  · apply bounded 1048580 within lengths
    intro finished
    cases finished

end DocPath.Node
