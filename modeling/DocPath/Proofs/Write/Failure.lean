import DocPath.Proofs.Write.Fill

/-! What a stopped write leaves behind. A wrong kind is met before anything was created, since
whatever a write creates fits the token that follows; so the document is as it was. An index beyond
the limit may be met behind newly made containers, and these stay. -/

namespace DocPath.Node

theorem ne_absent_of_kindMismatch {node : Node} {token other : Token} {depth : Nat} {found : Kind}
    (blocked : node.obstruction? token = some (.kindMismatch depth other found)) :
    node ≠ .absent := by
  rintro rfl
  cases token with
  | key name => cases blocked
  | index position =>
    unfold obstruction? at blocked
    rw [opened_absent] at blocked
    simp only [containerFor] at blocked
    split at blocked <;> cases blocked

theorem obstruction?_eq_indexBeyondLimit_iff {node : Node} {token : Token} {depth : Nat}
    {position : Index} :
    node.obstruction? token = some (.indexBeyondLimit depth position) ↔
      depth = 0 ∧ token = .index position ∧ maxArrayIndex < position.val ∧
        (node = .absent ∨ ∃ items, node = .array items ∧ items.length ≤ position.val) := by
  have beyond : ∀ {length : Nat} {place : Index},
      (if reaches length place then none else some (Obstruction.indexBeyondLimit 0 place)) =
        some (.indexBeyondLimit depth position) ↔
      depth = 0 ∧ place = position ∧ maxArrayIndex < position.val ∧ length ≤ position.val := by
    intro length place
    rw [Option.ite_none_left_eq_some, reaches_iff]
    constructor
    · rintro ⟨far, same⟩
      cases same
      exact ⟨rfl, rfl, by omega⟩
    · rintro ⟨rfl, rfl, far, short⟩
      exact ⟨by omega, rfl⟩
  unfold obstruction?
  cases node with
  | absent =>
    cases token with
    | key name => simp [containerFor]
    | index place => simp [containerFor, beyond]
  | array items =>
    rw [opened_of_ne_absent Node.noConfusion]
    cases token with
    | key name => simp
    | index place => simp [beyond]
  | null | bool | number | string | object =>
    rw [opened_of_ne_absent Node.noConfusion]
    cases token <;> simp

theorem writeBelow_of_kindMismatch {node value : Node} {path : Path} {depth : Nat} {token : Token}
    {found : Kind}
    (stopped : (writeBelow value path node).obstruction = some (.kindMismatch depth token found)) :
    node ≠ .absent ∧ (writeBelow value path node).document = node := by
  induction path generalizing node depth with
  | nil => cases stopped
  | cons first rest ih =>
    cases blocked : node.obstruction? first with
    | some obstruction =>
      rw [writeBelow_of_obstructed blocked] at stopped ⊢
      cases stopped
      have present := ne_absent_of_kindMismatch blocked
      exact ⟨present, opened_of_ne_absent present first⟩
    | none =>
      rw [writeBelow_of_clear blocked] at stopped ⊢
      obtain ⟨deeper, below, same⟩ := Option.map_eq_some_iff.mp stopped
      cases deeper <;> cases same
      obtain ⟨present, unchanged⟩ := ih below
      have here := ne_absent_of_slot present
      refine ⟨here, ?_⟩
      show (node.opened first).withSlot first _ = node
      rw [unchanged, opened_of_ne_absent here, withSlot_slot present]

theorem writeBelow_of_indexBeyondLimit {node value : Node} {path : Path} {depth : Nat}
    {position : Index}
    (stopped : (writeBelow value path node).obstruction = some (.indexBeyondLimit depth position)) :
    path[depth]? = some (.index position) ∧ maxArrayIndex < position.val ∧
      ((∃ items, node.get? (path.take depth) = some (.array items)) ∧
          (writeBelow value path node).document = node ∨
        node.get? (path.take depth) = none ∧
          node.fill? (path.take depth) (.array []) =
            some (writeBelow value path node).document) := by
  induction path generalizing node depth with
  | nil => cases stopped
  | cons first rest ih =>
    cases blocked : node.obstruction? first with
    | some obstruction =>
      rw [writeBelow_of_obstructed blocked] at stopped ⊢
      cases stopped
      obtain ⟨rfl, rfl, far, hole | ⟨items, array, -⟩⟩ :=
        obstruction?_eq_indexBeyondLimit_iff.mp blocked
      · subst hole
        exact ⟨rfl, far, Or.inr ⟨rfl, rfl⟩⟩
      · subst array
        exact ⟨rfl, far, Or.inl ⟨⟨items, rfl⟩, rfl⟩⟩
    | none =>
      rw [writeBelow_of_clear blocked] at stopped ⊢
      obtain ⟨deeper, below, same⟩ := Option.map_eq_some_iff.mp stopped
      cases deeper <;> cases same
      obtain ⟨named, far, ⟨⟨items, held⟩, unchanged⟩ | ⟨missing, made⟩⟩ := ih below
      · have present := ne_absent_of_get? held
        refine ⟨named, far, Or.inl ⟨⟨items, ?_⟩, ?_⟩⟩
        · rw [List.take_succ_cons, get?_cons_eq]
          exact held
        · show (node.opened first).withSlot first _ = node
          rw [unchanged, opened_of_ne_absent (ne_absent_of_slot present), withSlot_slot present]
      · refine ⟨named, far, Or.inr ⟨?_, ?_⟩⟩
        · rw [List.take_succ_cons, get?_cons_eq]
          exact missing
        · rw [List.take_succ_cons, fill?_cons_of_clear blocked, made]
          rfl

theorem obstruction_of_fits {node : Node} {token : Token} {obstruction : Obstruction}
    (fit : (node.opened token).fits token = true)
    (blocked : node.obstruction? token = some obstruction) :
    ∃ position, obstruction = .indexBeyondLimit 0 position := by
  unfold obstruction? at blocked
  rcases fits_iff.mp fit with ⟨fields, name, container, rfl⟩ | ⟨items, position, container, rfl⟩
  · rw [container] at blocked
    cases blocked
  · rw [container] at blocked
    simp only [Option.ite_none_left_eq_some, Option.some.injEq] at blocked
    exact ⟨position, blocked.2.symm⟩

theorem indexBeyondLimit_of_fits {node value : Node} {path : Path} {obstruction : Obstruction}
    (fit : ∀ front token back, path = front ++ token :: back →
      (((node.get? front).getD .absent).opened token).fits token = true)
    (stopped : (writeBelow value path node).obstruction = some obstruction) :
    ∃ depth position, obstruction = .indexBeyondLimit depth position := by
  induction path generalizing node obstruction with
  | nil => cases stopped
  | cons token rest ih =>
    cases blocked : node.obstruction? token with
    | some here =>
      rw [writeBelow_of_obstructed blocked] at stopped
      cases stopped
      have opened := fit [] token rest rfl
      rw [getD_get?_nil] at opened
      obtain ⟨position, same⟩ := obstruction_of_fits opened blocked
      exact ⟨0, position, same⟩
    | none =>
      rw [writeBelow_of_clear blocked] at stopped
      obtain ⟨inner, below, rfl⟩ := Option.map_eq_some_iff.mp stopped
      have deeper : ∃ depth position, inner = .indexBeyondLimit depth position := by
        refine ih ?_ below
        intro front other back split
        rw [← get?_cons_eq]
        exact fit (token :: front) other back (congrArg (List.cons token) split)
      obtain ⟨depth, position, rfl⟩ := deeper
      exact ⟨depth + 1, position, rfl⟩

theorem set_eq_error_iff {document value : Node} {path : Path} {error : Error} :
    document.set path value = .error error ↔
      ∃ obstruction, (document.write path value).obstruction = some obstruction ∧
        obstruction.error path = error := by
  unfold set
  rcases document.write path value with ⟨written, _ | obstruction⟩ <;> simp

theorem setAt_eq (document : Option Node) (text : String) (value : Node) :
    setAt document text value =
      (Path.parse text).bind fun path => (document.getD .absent).set path value := by
  unfold setAt writeAt set
  cases Path.parse text with
  | error fault => rfl
  | ok path =>
    simp only [Except.bind]
    cases ((document.getD .absent).write path value).obstruction <;> rfl

theorem snd_writeAt_eq_some {document value : Node} {text : String} {error : Error}
    (stopped : (document.writeAt text value).2 = some error) :
    document.writeAt text value = (document, some error) ∧ error.category = .malformedPath ∨
      ∃ path, Path.parse text = .ok path ∧ document.set path value = .error error ∧
        (document.writeAt text value).1 = (document.write path value).document := by
  unfold writeAt at stopped ⊢
  cases parsed : Path.parse text with
  | error fault =>
    rw [parsed] at stopped
    cases stopped
    refine Or.inl ⟨rfl, ?_⟩
    unfold Path.parse at parsed
    split at parsed <;> cases parsed
    rfl
  | ok path =>
    rw [parsed] at stopped
    obtain ⟨obstruction, met, same⟩ := Option.map_eq_some_iff.mp stopped
    exact Or.inr ⟨path, rfl, set_eq_error_iff.mpr ⟨obstruction, met, same⟩, rfl⟩

theorem write_of_kindMismatch {document value : Node} {path : Path} {depth : Nat} {token : Token}
    {found : Kind}
    (stopped : (document.write path value).obstruction = some (.kindMismatch depth token found)) :
    (document.write path value).document = document := by
  obtain ⟨present, unchanged⟩ := writeBelow_of_kindMismatch stopped
  have value : document ≠ .null := by
    rintro rfl
    exact present rfl
  rw [ground_of_ne_null value] at unchanged
  unfold write
  rw [ground_of_ne_null value, unchanged]

theorem write_of_indexBeyondLimit {document value : Node} {path : Path} {depth : Nat}
    {position : Index}
    (stopped : (document.write path value).obstruction =
      some (.indexBeyondLimit depth position)) :
    path[depth]? = some (.index position) ∧ maxArrayIndex < position.val ∧
      ((∃ items, document.get? (path.take depth) = some (.array items)) →
        (document.write path value).document = document) ∧
      ((¬∃ items, document.get? (path.take depth) = some (.array items)) →
        document.set (path.take depth) (.array []) = .ok (document.write path value).document) := by
  obtain ⟨named, far, ⟨⟨items, held⟩, unchanged⟩ | ⟨missing, made⟩⟩ :=
    writeBelow_of_indexBeyondLimit stopped
  · have value : document ≠ .null := by
      rintro rfl
      rw [show Node.null.ground = .absent from rfl, get?_absent] at held
      cases held
    rw [ground_of_ne_null value] at held unchanged
    refine ⟨named, far, fun _ => ?_, fun none => absurd ⟨items, held⟩ none⟩
    unfold write
    rw [ground_of_ne_null value, unchanged]
  · refine ⟨named, far, ?_, fun _ => set_eq_ok_iff.mpr made⟩
    rintro ⟨items, held⟩
    have ground := get?_ground_of_fits held (show (array items).fits (.index 0) = true from rfl)
    rw [ground] at missing
    cases missing

theorem write_cases (document : Node) (path : Path) (value : Node) :
    (document.write path value).document = document ∨
      document.set path value = .ok (document.write path value).document ∨
      ∃ depth, document.set (path.take depth) (.array []) = .ok (document.write path value).document := by
  cases stopped : (document.write path value).obstruction with
  | none =>
    right
    left
    exact set_eq_ok_iff.mpr (fill?_eq_some_iff.mpr (congrArg (Written.mk _) stopped))
  | some obstruction =>
    cases obstruction with
    | kindMismatch depth token found => exact Or.inl (write_of_kindMismatch stopped)
    | indexBeyondLimit depth position =>
      obtain ⟨-, -, unchanged, made⟩ := write_of_indexBeyondLimit stopped
      by_cases held : ∃ items, document.get? (path.take depth) = some (.array items)
      · exact Or.inl (unchanged held)
      · exact Or.inr (Or.inr ⟨depth, made held⟩)

theorem ne_indexBeyondLimit {document value : Node} {path : Path} (limit : Path.WithinLimit path)
    (depth : Nat) (position : Index) :
    (document.write path value).obstruction ≠ some (.indexBeyondLimit depth position) := by
  intro stopped
  obtain ⟨named, far, -⟩ := write_of_indexBeyondLimit stopped
  exact absurd (limit position (List.mem_of_getElem? named)) (Nat.not_le.mpr far)

/-- A write fails for a wrong kind or for an index beyond the limit. A wrong kind leaves the document
as it was. An index beyond the limit leaves the document as it was if it points into an array that
was there; otherwise it leaves what writing the empty array at its place makes. A text that is no
path leaves the document as it was. -/
theorem failed_write (document value : Node) :
    (∀ path error, document.set path value = .error error →
      error.category = .typeMismatch ∧ (document.write path value).document = document ∨
      error.category = .indexRange ∧ ∃ depth position,
        path[depth]? = some (.index position) ∧ maxArrayIndex < position.val ∧
        ((∃ items, document.get? (path.take depth) = some (.array items)) →
          (document.write path value).document = document) ∧
        ((¬∃ items, document.get? (path.take depth) = some (.array items)) →
          document.set (path.take depth) (.array []) =
            .ok (document.write path value).document)) ∧
    (∀ text error, (document.writeAt text value).2 = some error →
      error.category = .malformedPath → (document.writeAt text value).1 = document) := by
  have kinds : ∀ path error, document.set path value = .error error →
      error.category = .typeMismatch ∧ (document.write path value).document = document ∨
      error.category = .indexRange ∧ ∃ depth position,
        (document.write path value).obstruction = some (.indexBeyondLimit depth position) := by
    intro path error stopped
    obtain ⟨obstruction, met, rfl⟩ := set_eq_error_iff.mp stopped
    cases obstruction with
    | kindMismatch depth token found => exact Or.inl ⟨rfl, write_of_kindMismatch met⟩
    | indexBeyondLimit depth position => exact Or.inr ⟨rfl, depth, position, met⟩
  constructor
  · intro path error stopped
    rcases kinds path error stopped with unchanged | ⟨category, depth, position, met⟩
    · exact Or.inl unchanged
    · exact Or.inr ⟨category, depth, position, write_of_indexBeyondLimit met⟩
  · intro text error stopped malformed
    rcases snd_writeAt_eq_some stopped with ⟨unchanged, -⟩ | ⟨path, -, failed, -⟩
    · rw [unchanged]
    · rcases kinds path error failed with ⟨category, -⟩ | ⟨category, -⟩
      · rw [category] at malformed
        cases malformed
      · rw [category] at malformed
        cases malformed

theorem failed_write_behind_padding :
    let document := object [("a", array [bool true])]
    let path := [Token.key "a", .index 2, .index 1048577]
    let left := object [("a", array [bool true, absent, array []])]
    document.set path null = .error (.indexBeyondLimit path 2 1048577) ∧
      (document.write path null).document = left ∧
      document.set (path.take 2) (array []) = .ok left ∧
      (document.writeAt "a[" null).2 = some (.badPath "a[" ⟨.unterminatedIndex, 2⟩) ∧
      (document.writeAt "a[" null).1 = document := by
  intro document path left
  have stopped : document.set path null = .error (.indexBeyondLimit path 2 1048577) := rfl
  have refused : (document.writeAt "a[" null).2 =
      some (.badPath "a[" ⟨.unterminatedIndex, 2⟩) := by decide +kernel
  refine ⟨stopped, rfl, ?_, refused, (failed_write document null).2 _ _ refused rfl⟩
  rcases (failed_write document null).1 path _ stopped with ⟨category, -⟩ | ⟨-, depth, position, named, far, -, made⟩
  · cases category
  · have deep : depth = 2 := by
      match depth with
      | 0 => cases named
      | 1 => cases named; exact absurd far (by decide)
      | 2 => rfl
      | _ + 3 => cases named
    subst deep
    apply made
    rintro ⟨items, held⟩
    cases held

end DocPath.Node
