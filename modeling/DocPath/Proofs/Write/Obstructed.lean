import DocPath.Proofs.Write.Failure

/-! Which writes go through. Whether anything stops a write can be seen in the document before it: at each
token a node of another kind may stand, or an index may lie beyond the limit and beyond its array. What
a write makes on its way is never in its way, so the first such token decides, and the value does not. -/

namespace DocPath

namespace Obstruction

def depth : Obstruction → Nat
  | .kindMismatch depth _ _ => depth
  | .indexBeyondLimit depth _ => depth

def category : Obstruction → Error.Category
  | .kindMismatch .. => .typeMismatch
  | .indexBeyondLimit .. => .indexRange

theorem category_error (obstruction : Obstruction) (path : Path) :
    (obstruction.error path).category = obstruction.category := by
  cases obstruction <;> rfl

theorem depth_deeper (obstruction : Obstruction) :
    obstruction.deeper.depth = obstruction.depth + 1 := by
  cases obstruction <;> rfl

theorem exists_deeper {obstruction : Obstruction} (below : obstruction.depth ≠ 0) :
    ∃ inner : Obstruction, inner.deeper = obstruction := by
  cases obstruction with
  | kindMismatch depth token kind =>
    exact ⟨.kindMismatch (depth - 1) token kind,
      congrArg (kindMismatch · token kind) (Nat.succ_pred_eq_of_ne_zero below)⟩
  | indexBeyondLimit depth position =>
    exact ⟨.indexBeyondLimit (depth - 1) position,
      congrArg (indexBeyondLimit · position) (Nat.succ_pred_eq_of_ne_zero below)⟩

end Obstruction

namespace Node

/-- The node that a write comes to at a place. At the root null counts as nothing. -/
def standing? (document : Node) (place : Path) : Option Node :=
  if place = [] ∧ document.isNull then none else document.get? place

/-- What is in the way of a path in a document where `found` tells the node at each place: a node that
the next token cannot step into, or an index beyond the limit where no array reaches so far. -/
def InTheWay (found : Path → Option Node) (path : Path) : Obstruction → Prop
  | .kindMismatch depth token kind =>
      path[depth]? = some token ∧
        ∃ node, found (path.take depth) = some node ∧ node.fits token = false ∧ node.kind = kind
  | .indexBeyondLimit depth position =>
      path[depth]? = some (.index position) ∧ maxArrayIndex < position.val ∧
        (∀ node, found (path.take depth) = some node → node.fits (.index position) = true) ∧
        ∀ items, found (path.take depth) = some (.array items) → items.length ≤ position.val

/-- The shallowest obstruction of a path. -/
structure FirstInTheWay (found : Path → Option Node) (path : Path) (obstruction : Obstruction) :
    Prop where
  inTheWay : InTheWay found path obstruction
  first : ∀ other, InTheWay found path other → obstruction.depth ≤ other.depth

theorem standing?_eq (document : Node) : document.standing? = document.ground.get? := by
  funext place
  unfold standing?
  cases place with
  | nil =>
    cases document <;> simp [ground, isNull, present?, isAbsent]
  | cons token rest => rw [get?_ground_cons, if_neg (by simp)]

theorem obstruction?_of_not_fits {node : Node} {token : Token} (present : node ≠ .absent)
    (unfit : node.fits token = false) :
    node.obstruction? token = some (.kindMismatch 0 token node.kind) := by
  unfold obstruction?
  rw [opened_of_ne_absent present]
  cases node <;> cases token <;> first | rfl | cases unfit

theorem obstruction?_eq_kindMismatch_iff {node : Node} {token other : Token} {depth : Nat}
    {kind : Kind} :
    node.obstruction? token = some (.kindMismatch depth other kind) ↔
      depth = 0 ∧ token = other ∧ node ≠ .absent ∧ node.fits token = false ∧ node.kind = kind := by
  constructor
  · intro blocked
    have present := ne_absent_of_kindMismatch blocked
    have unfit : node.fits token = false := by
      rw [← Bool.not_eq_true]
      intro fit
      obtain ⟨position, range⟩ :=
        obstruction_of_fits (by rw [opened_of_ne_absent present]; exact fit) blocked
      cases range
    rw [obstruction?_of_not_fits present unfit] at blocked
    cases blocked
    exact ⟨rfl, rfl, present, unfit, rfl⟩
  · rintro ⟨rfl, rfl, present, unfit, rfl⟩
    exact obstruction?_of_not_fits present unfit

theorem obstruction?_eq_some_iff {node : Node} {token : Token} (rest : Path)
    {obstruction : Obstruction} :
    node.obstruction? token = some obstruction ↔
      obstruction.depth = 0 ∧ InTheWay node.get? (token :: rest) obstruction := by
  cases obstruction with
  | kindMismatch depth other kind =>
    rw [obstruction?_eq_kindMismatch_iff]
    refine and_congr_right fun top => ?_
    have top : depth = 0 := top
    subst top
    simp only [InTheWay, List.getElem?_cons_zero, Option.some.injEq, List.take_zero, get?_nil,
      present?_eq_some_iff]
    constructor
    · rintro ⟨rfl, present, unfit, named⟩
      exact ⟨rfl, node, ⟨present, rfl⟩, unfit, named⟩
    · rintro ⟨rfl, _, ⟨present, rfl⟩, unfit, named⟩
      exact ⟨rfl, present, unfit, named⟩
  | indexBeyondLimit depth position =>
    rw [obstruction?_eq_indexBeyondLimit_iff]
    refine and_congr_right fun top => ?_
    have top : depth = 0 := top
    subst top
    simp only [InTheWay, List.getElem?_cons_zero, Option.some.injEq, List.take_zero, get?_nil,
      present?_eq_some_iff]
    refine and_congr_right fun _ => and_congr_right fun _ => ?_
    constructor
    · rintro (rfl | ⟨items, rfl, short⟩)
      · exact ⟨fun _ stands => absurd rfl stands.1, fun _ stands => absurd rfl stands.1⟩
      · refine ⟨fun _ stands => ?_, fun _ stands => ?_⟩
        · rw [← stands.2]
          rfl
        · cases stands.2
          exact short
    · rintro ⟨fit, short⟩
      by_cases hole : node = .absent
      · exact Or.inl hole
      · obtain ⟨_, _, _, wrong⟩ | ⟨items, _, same, _⟩ := fits_iff.mp (fit node ⟨hole, rfl⟩)
        · cases wrong
        · exact Or.inr ⟨items, same, short items ⟨hole, same⟩⟩

theorem inTheWay_deeper_iff {node : Node} {token : Token} {rest : Path} {obstruction : Obstruction} :
    InTheWay node.get? (token :: rest) obstruction.deeper ↔
      InTheWay (node.slot token).get? rest obstruction := by
  cases obstruction <;>
    simp only [Obstruction.deeper, InTheWay, List.getElem?_cons_succ, List.take_succ_cons,
      get?_cons_eq]

theorem InTheWay.depth_lt {found : Path → Option Node} {path : Path} {obstruction : Obstruction}
    (inTheWay : InTheWay found path obstruction) : obstruction.depth < path.length := by
  cases obstruction with
  | kindMismatch depth token kind => exact (List.getElem?_eq_some_iff.mp inTheWay.1).1
  | indexBeyondLimit depth position => exact (List.getElem?_eq_some_iff.mp inTheWay.1).1

theorem not_inTheWay_nil (found : Path → Option Node) (obstruction : Obstruction) :
    ¬ InTheWay found [] obstruction :=
  fun inTheWay => Nat.not_lt_zero obstruction.depth inTheWay.depth_lt

theorem firstInTheWay_cons_iff {node : Node} {token : Token} {rest : Path}
    {obstruction : Obstruction} :
    FirstInTheWay node.get? (token :: rest) obstruction ↔
      node.obstruction? token = some obstruction ∨
        node.obstruction? token = none ∧ ∃ inner : Obstruction, inner.deeper = obstruction ∧
          FirstInTheWay (node.slot token).get? rest inner := by
  constructor
  · rintro ⟨here, first⟩
    cases blocked : node.obstruction? token with
    | some other =>
      obtain ⟨top, inTheWay⟩ := (obstruction?_eq_some_iff rest).mp blocked
      have atTop : obstruction.depth = 0 := by
        have := first other inTheWay
        omega
      exact Or.inl (blocked.symm.trans ((obstruction?_eq_some_iff rest).mpr ⟨atTop, here⟩))
    | none =>
      have below : obstruction.depth ≠ 0 := by
        intro atTop
        rw [(obstruction?_eq_some_iff rest).mpr ⟨atTop, here⟩] at blocked
        cases blocked
      obtain ⟨inner, rfl⟩ := Obstruction.exists_deeper below
      refine Or.inr ⟨rfl, inner, rfl, inTheWay_deeper_iff.mp here, fun other later => ?_⟩
      have order := first other.deeper (inTheWay_deeper_iff.mpr later)
      rw [Obstruction.depth_deeper, Obstruction.depth_deeper] at order
      omega
  · rintro (blocked | ⟨clear, inner, rfl, later, first⟩)
    · obtain ⟨top, here⟩ := (obstruction?_eq_some_iff rest).mp blocked
      exact ⟨here, fun other _ => by omega⟩
    · refine ⟨inTheWay_deeper_iff.mpr later, fun other inTheWay => ?_⟩
      have below : other.depth ≠ 0 := by
        intro atTop
        rw [(obstruction?_eq_some_iff rest).mpr ⟨atTop, inTheWay⟩] at clear
        cases clear
      obtain ⟨outer, rfl⟩ := Obstruction.exists_deeper below
      have order := first outer (inTheWay_deeper_iff.mp inTheWay)
      rw [Obstruction.depth_deeper, Obstruction.depth_deeper]
      omega

/-- What stops a write is the first thing in its way. -/
theorem obstruction_writeBelow_eq_some_iff {node value : Node} {path : Path}
    {obstruction : Obstruction} :
    (writeBelow value path node).obstruction = some obstruction ↔
      FirstInTheWay node.get? path obstruction := by
  induction path generalizing node obstruction with
  | nil =>
    constructor
    · intro stopped
      cases stopped
    · exact fun first => absurd first.inTheWay (not_inTheWay_nil node.get? obstruction)
  | cons token rest ih =>
    rw [firstInTheWay_cons_iff]
    cases blocked : node.obstruction? token with
    | some here => simp [writeBelow_of_obstructed blocked]
    | none =>
      rw [writeBelow_of_clear blocked]
      simp only [Option.map_eq_some_iff, ih, reduceCtorEq, false_or, true_and]
      exact exists_congr fun inner => and_comm

theorem exists_firstInTheWay {found : Path → Option Node} {path : Path} {obstruction : Obstruction}
    (inTheWay : InTheWay found path obstruction) : ∃ first, FirstInTheWay found path first := by
  by_cases first : ∀ other, InTheWay found path other → obstruction.depth ≤ other.depth
  · exact ⟨obstruction, inTheWay, first⟩
  · simp only [Classical.not_forall, Nat.not_le] at first
    obtain ⟨other, there, shallower⟩ := first
    exact exists_firstInTheWay there
termination_by obstruction.depth

theorem obstruction_write_eq_some_iff {document value : Node} {path : Path}
    {obstruction : Obstruction} :
    (document.write path value).obstruction = some obstruction ↔
      FirstInTheWay document.standing? path obstruction := by
  rw [standing?_eq]
  exact obstruction_writeBelow_eq_some_iff

theorem obstruction_write_eq_none_iff {document value : Node} {path : Path} :
    (document.write path value).obstruction = none ↔
      ∀ obstruction, ¬ InTheWay document.standing? path obstruction := by
  rw [Option.eq_none_iff_forall_ne_some]
  simp only [ne_eq, obstruction_write_eq_some_iff]
  constructor
  · intro clear obstruction inTheWay
    obtain ⟨first, least⟩ := exists_firstInTheWay inTheWay
    exact clear first least
  · exact fun clear obstruction first => clear obstruction first.inTheWay

theorem exists_set_iff {document value : Node} {path : Path} :
    (∃ result, document.set path value = .ok result) ↔
      (document.write path value).obstruction = none := by
  unfold set
  rcases document.write path value with ⟨written, _ | obstruction⟩ <;> simp

/-- A write goes through exactly if nothing is in its way, and otherwise it fails with the first thing in
its way; the value has no part in this. A write at a written path comes to the same, and it makes no
difference whether there is no document yet, a null one or a hole. -/
theorem set_fails_at_first_obstruction (document : Node) (path : Path) (value : Node) :
    ((∃ result, document.set path value = .ok result) ↔
      ∀ obstruction, ¬ InTheWay document.standing? path obstruction) ∧
    (∀ error, document.set path value = .error error ↔
      ∃ obstruction, FirstInTheWay document.standing? path obstruction ∧
        obstruction.error path = error ∧ error.category = obstruction.category) ∧
    (∀ other, (document.write path value).obstruction = (document.write path other).obstruction) ∧
    (∀ root text, Path.parse text = .ok path →
      setAt root text value = (root.getD absent).set path value) ∧
    null.set path value = absent.set path value := by
  refine ⟨exists_set_iff.trans obstruction_write_eq_none_iff, ?_, ?_, ?_, rfl⟩
  · intro error
    rw [set_eq_error_iff]
    refine exists_congr fun obstruction => ?_
    rw [obstruction_write_eq_some_iff]
    refine and_congr_right fun _ => ?_
    constructor
    · rintro rfl
      exact ⟨rfl, obstruction.category_error path⟩
    · exact And.left
  · intro other
    apply Option.ext
    intro obstruction
    rw [obstruction_write_eq_some_iff, obstruction_write_eq_some_iff]
  · intro root text read
    rw [setAt_eq, read]
    rfl

theorem set_stopped_behind_items :
    let document := object [("a", array [bool true, null])]
    let far := [Token.key "a", .index 1048577, .key "b"]
    let through := [Token.key "a", .index 1, .key "b"]
    document.set far null = .error (.indexBeyondLimit far 1 1048577) ∧
      document.set through null = .error (.kindMismatch through 2 (.key "b") .null) ∧
      FirstInTheWay document.standing? far (.indexBeyondLimit 1 1048577) ∧
      FirstInTheWay document.standing? through (.kindMismatch 2 (.key "b") .null) ∧
      setAt (some document) "a[01].b" null = document.set through null := by
  intro document far through
  have first : document.set far null = .error (.indexBeyondLimit far 1 1048577) := rfl
  have second : document.set through null =
    .error (.kindMismatch through 2 (.key "b") .null) := rfl
  have read : Path.parse "a[01].b" = .ok through := rfl
  obtain ⟨-, -, -, written, -⟩ := set_fails_at_first_obstruction document through null
  obtain ⟨met, least, same, -⟩ := ((set_fails_at_first_obstruction document far null).2.1 _).mp first
  obtain ⟨met', least', same', -⟩ :=
    ((set_fails_at_first_obstruction document through null).2.1 _).mp second
  refine ⟨first, second, ?_, ?_, written (some document) _ read⟩
  · cases met <;> cases same
    exact least
  · cases met' <;> cases same'
    exact least'

end Node
end DocPath
