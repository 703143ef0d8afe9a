import DocPath.Proofs.Write.Nested
import DocPath.Proofs.Write.Obstructed

/-! Writing step by step. A cursor runs along the path; where a container has no slot for the next token
the slot is made, and then it is looked up. Lengths have 64 bits, their sums are checked, and a lookup may
miss. No lookup ever does, in the path or in a container, and the steps come to what a write leaves. -/

namespace DocPath

def Index.next? (position : Index) : Option Index := Index.ofNat? (position.val + 1)

theorem Obstruction.behind_deeper (tokens : Nat) :
    Obstruction.behind tokens ∘ Obstruction.deeper = Obstruction.behind (tokens + 1) := by
  funext obstruction
  cases obstruction <;> simp [behind, deeper, Nat.add_comm tokens, Nat.add_assoc]

theorem Path.of_drop_eq_cons {path rest : Path} {cursor : Nat} {token : Token}
    (ahead : path.drop cursor = token :: rest) :
    path[cursor]? = some token ∧ path.drop (cursor + 1) = rest ∧
      path.length = cursor + 1 + rest.length := by
  have length := congrArg List.length ahead
  rw [List.length_drop, List.length_cons] at length
  refine ⟨?_, ?_, by omega⟩
  · rw [← List.head?_drop, ahead]
    rfl
  · rw [← List.tail_drop, ahead]
    rfl

namespace Node

/-- The length that an array needs for an index, if it has 64 bits and a write may make an array so long. -/
def lengthFor? (position : Index) : Option Index :=
  position.next?.filter fun length => length.val ≤ maxArrayIndex + 1

def resized (length : Index) (items : List Node) : List Node :=
  items.take length.val ++ List.replicate (length.val - items.length) .absent

/-- The container with a slot for the token at the cursor, which is made if there is none, or what is in
the way. -/
def withRoom (cursor : Nat) (container : Node) (token : Token) : Except Obstruction Node :=
  match container, token with
  | .object fields, .key name =>
      if name ∈ Fields.names fields then .ok (.object fields)
      else .ok (.object (fields ++ [(name, .absent)]))
  | .array items, .index position =>
      if position.val < items.length then .ok (.array items)
      else
        match lengthFor? position with
        | some length => .ok (.array (resized length items))
        | none => .error (.indexBeyondLimit cursor position)
  | other, token => .error (.kindMismatch cursor token other.kind)

/-- The steps from a cursor on, in a container that is there. -/
def writeFrom (path : Path) (value : Node) (cursor : Nat) (container : Node) : Option Written :=
  path[cursor]?.bind fun token =>
    match container.withRoom cursor token with
    | .error obstruction => some ⟨container, some obstruction⟩
    | .ok room =>
        (room.lookup? token).bind fun (child, around) =>
          if cursor + 1 < path.length then
            path[cursor + 1]?.bind fun next =>
              if child.isAbsent || child.fits next then
                (writeFrom path value (cursor + 1) (child.opened next)).map fun inner =>
                  ⟨around inner.document, inner.obstruction⟩
              else some ⟨room, some (.kindMismatch (cursor + 1) next child.kind)⟩
          else some ⟨around value, none⟩
termination_by path.length - cursor

/-- A write step by step, or nothing where a lookup misses. -/
def checkedWrite? (document : Node) (path : Path) (value : Node) : Option Written :=
  if path.length = 0 then some ⟨value, none⟩
  else
    path[0]?.bind fun first =>
      writeFrom path value 0 (if document.isNullish then containerFor first else document)

theorem lengthFor?_of_le {position : Index} (within : position.val ≤ maxArrayIndex) :
    ∃ length, lengthFor? position = some length ∧ length.val = position.val + 1 := by
  have short : position.val + 1 < 0x10000000000000000 := by
    unfold maxArrayIndex at within
    omega
  refine ⟨⟨position.val + 1, short⟩, ?_, rfl⟩
  unfold lengthFor? Index.next?
  rw [Option.filter_eq_some_iff, Index.ofNat?_eq_some_iff, decide_eq_true_iff]
  exact ⟨rfl, Nat.succ_le_succ within⟩

theorem lengthFor?_of_lt {position : Index} (beyond : maxArrayIndex < position.val) :
    lengthFor? position = none := by
  unfold lengthFor? Index.next?
  rw [Option.filter_eq_none_iff]
  intro length sum
  have value := Index.ofNat?_eq_some_iff.mp sum
  rw [decide_eq_true_iff]
  omega

theorem resized_eq_padTo {length : Index} {items : List Node} (longer : items.length ≤ length.val) :
    resized length items = padTo length.val items := by
  rw [resized, List.take_of_length_le longer, padTo]

theorem set_of_getElem? {items : List Node} {position : Nat} {item : Node}
    (held : items[position]? = some item) : items.set position item = items := by
  obtain ⟨within, same⟩ := List.getElem?_eq_some_iff.mp held
  rw [← same]
  exact List.set_getElem_self within

theorem withRoom_object (cursor : Nat) (fields : List (String × Node)) (name : String) :
    (object fields).withRoom cursor (.key name) =
      .ok ((object fields).withSlot (.key name) ((object fields).slot (.key name))) := by
  unfold withRoom withSlot slot
  cases found : Fields.get? name fields with
  | none =>
    have missing := Fields.get?_eq_none_iff.mp found
    simp only [if_neg missing, found, Option.getD_none, Fields.put_of_not_mem missing]
  | some child =>
    have present := Fields.mem_names_iff.mpr ⟨child, found⟩
    simp only [if_pos present, found, Option.getD_some, Fields.put_of_get? found]

theorem withRoom_array (cursor : Nat) (items : List Node) (position : Index) :
    (array items).withRoom cursor (.index position) =
      if reaches items.length position then
        .ok ((array items).withSlot (.index position) ((array items).slot (.index position)))
      else .error (.indexBeyondLimit cursor position) := by
  unfold withRoom withSlot slot
  by_cases inside : position.val < items.length
  · have kept := set_of_getElem? (List.getElem?_eq_getElem inside)
    simp only [if_pos inside, if_pos (reaches_iff.mpr (Or.inr inside)),
      padTo_of_le (Nat.succ_le_of_lt inside), List.getElem?_eq_getElem inside, Option.getD_some, kept]
  · have outside := Nat.not_lt.mp inside
    by_cases within : position.val ≤ maxArrayIndex
    · obtain ⟨length, sum, value⟩ := lengthFor?_of_le within
      have padded : resized length items = padTo (position.val + 1) items := by
        rw [resized_eq_padTo (by omega), value]
      have hole : (padTo (position.val + 1) items)[position.val]? = some .absent := by
        rw [getElem?_padTo, if_neg inside, if_pos (Nat.lt_succ_self position.val)]
      simp only [if_neg inside, sum, padded, if_pos (reaches_iff.mpr (Or.inl within)),
        List.getElem?_eq_none outside, Option.getD_none, set_of_getElem? hole]
    · have stopped : ¬ reaches items.length position = true := by
        rw [reaches_iff]
        omega
      simp only [if_neg inside, lengthFor?_of_lt (Nat.not_le.mp within), if_neg stopped]

theorem withRoom_of_not_fits {container : Node} {token : Token} (unfit : container.fits token = false)
    (cursor : Nat) :
    container.withRoom cursor token = .error (.kindMismatch cursor token container.kind) := by
  cases container with
  | absent | null | bool | number | string => rfl
  | object fields =>
    cases token with
    | key name => cases unfit
    | index position => rfl
  | array items =>
    cases token with
    | key name => rfl
    | index position => cases unfit

theorem withRoom_opened (cursor : Nat) (node : Node) (token : Token) :
    (node.opened token).withRoom cursor token =
      match node.obstruction? token with
      | none => .ok ((node.opened token).withSlot token (node.slot token))
      | some obstruction => .error (obstruction.behind cursor) := by
  rw [← slot_opened node token token]
  unfold obstruction?
  generalize node.opened token = container
  have mismatch : container.fits token = false → container.withRoom cursor token =
      .error ((Obstruction.kindMismatch 0 token container.kind).behind cursor) := by
    intro unfit
    rw [withRoom_of_not_fits unfit, Obstruction.behind, Nat.zero_add]
  cases container with
  | absent | null | bool | number | string => exact mismatch (by cases token <;> rfl)
  | object fields =>
    cases token with
    | key name => exact withRoom_object cursor fields name
    | index position => exact mismatch rfl
  | array items =>
    cases token with
    | key name => exact mismatch rfl
    | index position =>
      rw [withRoom_array]
      by_cases reach : reaches items.length position = true
      · simp only [if_pos reach]
      · simp only [if_neg reach, Obstruction.behind, Nat.zero_add]

theorem lookup?_withSlot {container : Node} {token : Token} (fit : container.fits token = true)
    (child : Node) :
    (container.withSlot token child).lookup? token = some (child, container.withSlot token) := by
  obtain ⟨fields, name, same, key⟩ | ⟨items, position, same, index⟩ := fits_iff.mp fit
  · subst same
    subst key
    simp only [lookup?, withSlot, Fields.get?_put_self, Option.map_some, Fields.put_put]
    rfl
  · subst same
    subst index
    have within : position.val < (padTo (position.val + 1) items).length := by
      rw [length_padTo]
      omega
    simp only [lookup?, withSlot, List.getElem?_set_self within, Option.map_some, List.set_set]
    rfl

theorem writeFrom_of_obstructed {path : Path} {cursor : Nat} {token : Token}
    (here : path[cursor]? = some token) (value : Node) {node : Node} {obstruction : Obstruction}
    (blocked : node.obstruction? token = some obstruction) (rest : Path) :
    writeFrom path value cursor (node.opened token) =
      some ⟨(writeBelow value (token :: rest) node).document,
        (writeBelow value (token :: rest) node).obstruction.map (Obstruction.behind cursor)⟩ := by
  have stopped := withRoom_opened cursor node token
  rw [blocked] at stopped
  rw [writeFrom, here, Option.bind_some, stopped, writeBelow_of_obstructed blocked]
  rfl

theorem writeFrom_of_clear {path : Path} {cursor : Nat} {token : Token}
    (here : path[cursor]? = some token) (value : Node) {node : Node}
    (clear : node.obstruction? token = none) :
    writeFrom path value cursor (node.opened token) =
      if cursor + 1 < path.length then
        path[cursor + 1]?.bind fun next =>
          if (node.slot token).isAbsent || (node.slot token).fits next then
            (writeFrom path value (cursor + 1) ((node.slot token).opened next)).map fun inner =>
              ⟨(node.opened token).withSlot token inner.document, inner.obstruction⟩
          else
            some ⟨(node.opened token).withSlot token (node.slot token),
              some (.kindMismatch (cursor + 1) next (node.slot token).kind)⟩
      else some ⟨(node.opened token).withSlot token value, none⟩ := by
  have room := withRoom_opened cursor node token
  rw [clear] at room
  rw [writeFrom, here, Option.bind_some, room]
  simp only [lookup?_withSlot (fits_of_clear clear), Option.bind_some]

theorem writeFrom_opened {path : Path} {cursor : Nat} {token : Token} {rest : Path}
    (ahead : path.drop cursor = token :: rest) (value node : Node) :
    writeFrom path value cursor (node.opened token) =
      some ⟨(writeBelow value (token :: rest) node).document,
        (writeBelow value (token :: rest) node).obstruction.map (Obstruction.behind cursor)⟩ := by
  induction rest generalizing cursor token node with
  | nil =>
    obtain ⟨here, -, length⟩ := Path.of_drop_eq_cons ahead
    cases blocked : node.obstruction? token with
    | some obstruction => exact writeFrom_of_obstructed here value blocked []
    | none =>
      have last : ¬cursor + 1 < path.length := Nat.not_lt.mpr (Nat.le_of_eq length)
      rw [writeFrom_of_clear here value blocked, writeBelow_of_clear blocked, if_neg last]
      rfl
  | cons next others ih =>
    obtain ⟨here, later, -⟩ := Path.of_drop_eq_cons ahead
    obtain ⟨following, -, length⟩ := Path.of_drop_eq_cons later
    cases blocked : node.obstruction? token with
    | some obstruction => exact writeFrom_of_obstructed here value blocked (next :: others)
    | none =>
      rw [writeFrom_of_clear here value blocked, writeBelow_of_clear blocked, if_pos (by omega), following,
        Option.bind_some]
      by_cases passes : ((node.slot token).isAbsent || (node.slot token).fits next) = true
      · rw [if_pos passes, ih later (node.slot token), Option.map_some, Option.map_map,
          Obstruction.behind_deeper]
      · rw [if_neg passes]
        rw [Bool.or_eq_true, not_or, isAbsent_iff, Bool.not_eq_true] at passes
        obtain ⟨present, unfit⟩ := passes
        rw [writeBelow_of_obstructed (obstruction?_of_not_fits present unfit),
          opened_of_ne_absent present, Option.map_some, Option.map_some, Obstruction.deeper,
          Obstruction.behind, Nat.zero_add, Nat.add_comm 1]

/-- No lookup misses, and the steps come to what the write leaves. -/
theorem checkedWrite?_eq (document : Node) (path : Path) (value : Node) :
    document.checkedWrite? path value = some (document.write path value) := by
  unfold checkedWrite? write
  cases path with
  | nil => rfl
  | cons first rest =>
    have root : (if document.isNullish then containerFor first else document) =
        document.ground.opened first := by
      cases document <;> rfl
    have ahead : (first :: rest).drop 0 = first :: rest := rfl
    have steps := writeFrom_opened ahead value document.ground
    rw [Obstruction.behind_zero, Option.map_id_fun, ← root] at steps
    exact steps

end Node
end DocPath
