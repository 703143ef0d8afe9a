import DocPath.Proofs.Document.Alike
import DocPath.Proofs.Path.Apart
import DocPath.Proofs.Write.Sequence

/-! Writes at paths that lie apart. Two of them part at some container, where they go on through
different slots; each needs of the container what it would need without the other, so they finish in
either order or in none, and what they leave differs at most in the order of fields. By exchanging
neighbours the same holds for any order of any number of writes. -/

namespace DocPath.Node

theorem set_padTo_comm {first second : Nat} (differ : first ≠ second) (items : List Node)
    (left right : Node) :
    (padTo (second + 1) ((padTo (first + 1) items).set first left)).set second right =
      (padTo (first + 1) ((padTo (second + 1) items).set second right)).set first left := by
  apply List.ext_getElem?
  intro place
  simp only [List.getElem?_set, getElem?_padTo, length_padTo, List.length_set]
  split_ifs <;> first | rfl | omega

theorem alike_of_get?_eq {fields others : List (String × Node)}
    (distinct : Everywhere DistinctNames (object fields)) (names : (Fields.names others).Nodup)
    (equal : ∀ name, Fields.get? name fields = Fields.get? name others) :
    Alike (object fields) (object others) := by
  obtain ⟨⟨left, -⟩, each⟩ := alike_object_iff.mp (Alike.refl distinct)
  refine alike_object_iff.mpr ⟨⟨left, names⟩, ?_⟩
  intro name
  rw [← equal name]
  exact each name

theorem alike_withSlot_comm {node first second : Node} {token other : Token} (differ : token ≠ other)
    (distinct : Everywhere DistinctNames node) (left : Everywhere DistinctNames first)
    (right : Everywhere DistinctNames second) :
    Alike ((node.withSlot token first).withSlot other second)
      ((node.withSlot other second).withSlot token first) := by
  have whole := (((Alike.refl distinct).withSlot token (Alike.refl left)).withSlot other
    (Alike.refl right)).distinctLeft
  cases node with
  | absent | null | bool | number | string =>
    cases token <;> cases other <;> exact Alike.refl distinct
  | object fields =>
    cases token with
    | index position => cases other <;> exact Alike.refl whole
    | key name =>
      cases other with
      | index position => exact Alike.refl whole
      | key place =>
        have names : place ≠ name := fun same => differ (congrArg Token.key same.symm)
        have start := (everywhere_object_iff.mp distinct).1
        apply alike_of_get?_eq whole
          (Fields.nodup_names_put (Fields.nodup_names_put start place second) name first)
        intro asked
        by_cases here : asked = place
        · rw [here, Fields.get?_put_self, Fields.get?_put_of_ne names, Fields.get?_put_self]
        · rw [Fields.get?_put_of_ne here]
          by_cases there : asked = name
          · rw [there, Fields.get?_put_self, Fields.get?_put_self]
          · rw [Fields.get?_put_of_ne there, Fields.get?_put_of_ne there, Fields.get?_put_of_ne here]
  | array items =>
    cases token with
    | key name => cases other <;> exact Alike.refl whole
    | index position =>
      cases other with
      | key name => exact Alike.refl whole
      | index place =>
        have positions : position.val ≠ place.val :=
          fun same => differ (congrArg Token.index (Fin.ext same))
        have same : ((array items).withSlot (.index position) first).withSlot (.index place) second =
            ((array items).withSlot (.index place) second).withSlot (.index position) first :=
          congrArg array (set_padTo_comm positions items first second)
        rw [← same]
        exact Alike.refl whole

theorem fill?_withSlot_of_ne {node child later result : Node} {token other : Token} {rest : Path}
    (clear : node.obstruction? token = none) (differ : token ≠ other) :
    ((node.opened token).withSlot token child).fill? (other :: rest) later = some result ↔
      (token.isKey = other.isKey ∧ node.obstruction? other = none) ∧
        ∃ inner, (node.slot other).fill? rest later = some inner ∧
          ((node.opened token).withSlot token child).withSlot other inner = result := by
  have present : (node.opened token).withSlot token child ≠ .absent :=
    ne_absent_of_fits ((fits_withSlot _ token child token).trans (fits_of_clear clear))
  rw [fill?_cons_eq_some_iff, clear_withSlot_iff clear, slot_withSlot_of_ne differ.symm, slot_opened,
    opened_of_ne_absent present]

theorem fillAll?_pair (node : Node) (first second : Path × Node) :
    node.fillAll? [first, second] =
      (node.fill? first.1 first.2).bind fun next => next.fill? second.1 second.2 := by
  rw [fillAll?_cons]
  congr 1
  funext next
  exact Option.bind_fun_some _

theorem fillAll?_pair_of_ne {node value later result : Node} {token other : Token} {rest more : Path}
    (differ : token ≠ other) :
    node.fillAll? [(token :: rest, value), (other :: more, later)] = some result ↔
      (node.obstruction? token = none ∧ node.obstruction? other = none ∧ token.isKey = other.isKey) ∧
        ∃ first second, (node.slot token).fill? rest value = some first ∧
          (node.slot other).fill? more later = some second ∧
          ((node.opened token).withSlot token first).withSlot other second = result := by
  rw [fillAll?_pair, Option.bind_eq_some_iff]
  constructor
  · rintro ⟨next, written, again⟩
    obtain ⟨clear, first, below, rfl⟩ := fill?_cons_eq_some_iff.mp written
    obtain ⟨⟨kinds, free⟩, second, beside, same⟩ := (fill?_withSlot_of_ne clear differ).mp again
    exact ⟨⟨clear, free, kinds⟩, first, second, below, beside, same⟩
  · rintro ⟨⟨clear, free, kinds⟩, first, second, below, beside, same⟩
    exact ⟨_, fill?_cons_eq_some_iff.mpr ⟨clear, first, below, rfl⟩,
      (fill?_withSlot_of_ne clear differ).mpr ⟨⟨kinds, free⟩, second, beside, same⟩⟩

theorem opened_eq_of_isKey_eq {token other : Token} (kinds : token.isKey = other.isKey) (node : Node) :
    node.opened token = node.opened other := by
  cases token <;> cases other <;> first | rfl | cases kinds

theorem distinctNames_fill? {node value result : Node} {path : Path}
    (filled : node.fill? path value = some result) (distinct : Everywhere DistinctNames node)
    (inner : Everywhere DistinctNames value) : Everywhere DistinctNames result := by
  have same := (Alike.refl distinct).fill? (Alike.refl inner) path
  rw [filled, Option.rel_some_some] at same
  exact same.distinctLeft

theorem fillAll?_swap {node value later : Node} {path way : Path} (apart : Path.Apart path way)
    (distinct : Everywhere DistinctNames node) (left : Everywhere DistinctNames value)
    (right : Everywhere DistinctNames later) :
    Option.Rel Alike (node.fillAll? [(path, value), (way, later)])
      (node.fillAll? [(way, later), (path, value)]) := by
  induction path generalizing node way with
  | nil => exact absurd apart (Path.not_apart_nil way)
  | cons token rest ih =>
    cases way with
    | nil => exact absurd apart.symm (Path.not_apart_nil _)
    | cons other more =>
      have below : ∀ step, Everywhere DistinctNames (node.slot step) :=
        fun step => ((Alike.refl distinct).slot step).distinctLeft
      by_cases same : token = other
      · subst same
        cases blocked : node.obstruction? token with
        | some obstruction =>
          have stopped : ∀ path value, node.fill? (token :: path) value = none := by
            intro path value
            rw [Node.fill?, writeBelow_of_obstructed blocked]
          rw [fillAll?_pair, fillAll?_pair, stopped, stopped]
          exact .none
        | none =>
          have forth := fillAll?_under blocked (List.cons_ne_nil (rest, value) [(more, later)])
          have back := fillAll?_under blocked (List.cons_ne_nil (more, later) [(rest, value)])
          have inner := ih (Path.apart_cons_iff.mp apart rfl) (below token)
          show Option.Rel Alike (node.fillAll? ([(rest, value), (more, later)].map (Path.under token)))
            (node.fillAll? ([(more, later), (rest, value)].map (Path.under token)))
          rw [forth, back]
          exact Option.Rel.map inner fun one two alike =>
            ((Alike.refl distinct).opened token).withSlot token alike
      · apply Option.Rel.of_forth_back
        · intro result finished
          obtain ⟨⟨clear, free, kinds⟩, first, second, one, two, rfl⟩ :=
            (fillAll?_pair_of_ne same).mp finished
          refine ⟨_, (fillAll?_pair_of_ne (Ne.symm same)).mpr
            ⟨⟨free, clear, kinds.symm⟩, second, first, two, one, rfl⟩, ?_⟩
          rw [opened_eq_of_isKey_eq kinds]
          exact alike_withSlot_comm same ((Alike.refl distinct).opened other).distinctLeft
            (distinctNames_fill? one (below token) left) (distinctNames_fill? two (below other) right)
        · intro result finished
          obtain ⟨⟨free, clear, kinds⟩, second, first, two, one, -⟩ :=
            (fillAll?_pair_of_ne (Ne.symm same)).mp finished
          exact ⟨_, (fillAll?_pair_of_ne same).mpr
            ⟨⟨clear, free, kinds.symm⟩, first, second, one, two, rfl⟩⟩

theorem toOption_set (document : Node) (path : Path) (value : Node) :
    (document.set path value).toOption = document.ground.fill? path value := by
  unfold set write Node.fill?
  rcases writeBelow value path document.ground with ⟨written, _ | obstruction⟩ <;> rfl

theorem toOption_setAll_cons (document : Node) (write : Path × Node) (rest : List (Path × Node)) :
    (document.setAll (write :: rest)).toOption =
      (document.ground.fill? write.1 write.2).bind fun next => (next.setAll rest).toOption := by
  rw [setAll_cons, ← toOption_set]
  cases document.set write.1 write.2 <;> rfl

theorem toOption_setAll_pair (document : Node) {first second : Path × Node} (inside : first.1 ≠ [])
    (rest : List (Path × Node)) :
    (document.setAll (first :: second :: rest)).toOption =
      (document.ground.fillAll? [first, second]).bind fun next => (next.setAll rest).toOption := by
  rw [toOption_setAll_cons, fillAll?_pair, Option.bind_assoc]
  apply Option.bind_congr
  intro next filled
  rw [toOption_setAll_cons, ground_of_fill? inside filled]

theorem Alike.ground {left right : Node} (alike : Alike left right) :
    Alike left.ground right.ground := by
  by_cases null : left = .null
  · subst null
    have kinds := alike.kind_eq
    cases right <;> cases kinds
    exact Alike.absent
  · have value : right ≠ .null := by
      rintro rfl
      have kinds := alike.kind_eq
      cases left <;> first | exact null rfl | cases kinds
    rw [ground_of_ne_null null, ground_of_ne_null value]
    exact alike

theorem Alike.setAll_forall₂ {left right : Node} (alike : Alike left right)
    {writes others : List (Path × Node)}
    (each : List.Forall₂ (fun write other => write.1 = other.1 ∧ Alike write.2 other.2) writes others) :
    Option.Rel Alike (left.setAll writes).toOption (right.setAll others).toOption := by
  induction each generalizing left right with
  | nil => exact .some alike
  | cons here later ih =>
    rw [toOption_setAll_cons, toOption_setAll_cons, here.1]
    exact Option.Rel.bind (alike.ground.fill? here.2 _) fun one two same => ih same

theorem Alike.setAll {left right : Node} (alike : Alike left right) {writes : List (Path × Node)}
    (distinct : ∀ write ∈ writes, Everywhere DistinctNames write.2) :
    Option.Rel Alike (left.setAll writes).toOption (right.setAll writes).toOption :=
  alike.setAll_forall₂ (List.forall₂_same.mpr fun write member => ⟨rfl, Alike.refl (distinct write member)⟩)

/-- Writes at paths that lie apart finish in every order or in none, and make the same. -/
theorem setAll_perm {writes others : List (Path × Node)} (perm : writes.Perm others)
    (distinct : ∀ write ∈ writes, Everywhere DistinctNames write.2)
    (apart : writes.Pairwise fun first second => Path.Apart first.1 second.1) {left right : Node}
    (alike : Alike left right) :
    Option.Rel Alike (left.setAll writes).toOption (right.setAll others).toOption := by
  induction perm generalizing left right with
  | nil => exact .some alike
  | cons write perm ih =>
    rw [toOption_setAll_cons, toOption_setAll_cons]
    have here := Alike.refl (distinct write List.mem_cons_self)
    refine Option.Rel.bind (alike.ground.fill? here write.1) ?_
    intro one two same
    exact ih (fun other later => distinct other (List.mem_cons_of_mem write later))
      (List.pairwise_cons.mp apart).2 same
  | swap second first rest =>
    have away : Path.Apart first.1 second.1 :=
      (List.pairwise_cons.mp apart).1 second List.mem_cons_self
    have one := distinct first List.mem_cons_self
    have two := distinct second (List.mem_cons_of_mem first List.mem_cons_self)
    have later : ∀ write ∈ rest, Everywhere DistinctNames write.2 := fun write member =>
      distinct write (List.mem_cons_of_mem first (List.mem_cons_of_mem second member))
    have exchanged : Option.Rel Alike (left.setAll (first :: second :: rest)).toOption
        (left.setAll (second :: first :: rest)).toOption := by
      rw [toOption_setAll_pair left away.ne_nil, toOption_setAll_pair left away.symm.ne_nil]
      have ground := (Alike.refl alike.distinctLeft).ground.distinctLeft
      exact Option.Rel.bind (fillAll?_swap away ground one two) fun _ _ same => same.setAll later
    have carried : Option.Rel Alike (left.setAll (second :: first :: rest)).toOption
        (right.setAll (second :: first :: rest)).toOption := by
      apply alike.setAll
      intro write member
      exact distinct write ((List.Perm.swap second first rest).mem_iff.mpr member)
    refine Option.Rel.trans_of_mem ?_ exchanged carried
    exact fun _ _ _ _ => Alike.trans
  | trans perm permAfter ih ihAfter =>
    have one := ih distinct apart (Alike.refl alike.distinctLeft)
    have two := ihAfter (fun write member => distinct write (perm.mem_iff.mpr member))
      (perm.pairwise apart Path.Apart.symm) alike
    refine Option.Rel.trans_of_mem ?_ one two
    exact fun _ _ _ _ => Alike.trans

theorem outcome_of_rel {first second : Except Error Node}
    (same : Option.Rel Alike first.toOption second.toOption) :
    ((∃ document, first = .ok document) ↔ ∃ document, second = .ok document) ∧
      ∀ one two, first = .ok one → second = .ok two → Alike one two := by
  cases first with
  | error fault =>
    cases second with
    | error other => simp
    | ok two => exact absurd same Option.not_rel_none_some
  | ok one =>
    cases second with
    | error other => exact absurd same Option.not_rel_some_none
    | ok two => simpa using Option.rel_some_some.mp same

end DocPath.Node
