import DocPath.Proofs.Json.Lexemes

/-! Reading what was written. The reader keeps the open containers on a stack, so what it makes of the
lexemes of a value is said for every stack below: the value goes into the innermost container, unless
it would open more containers than are allowed. -/

namespace DocPath.Json

def deepest (depths : List Nat) : Nat := depths.foldr max 0

/-- How many containers are open at once where the most are. -/
def Algebra.nesting : Algebra Nat where
  null := 0
  bool _ := 0
  number _ := 0
  string _ := 0
  array depths := deepest depths + 1
  object _ fields := deepest (fields.map Prod.snd) + 1

def nesting (json : Json) : Nat := json.fold Algebra.nesting

theorem nesting_array (items : List Json) :
    (array items).nesting = deepest (items.map nesting) + 1 := by
  rw [nesting, fold]
  rfl

theorem nesting_object (fields : List (String × Json)) :
    (object fields).nesting = deepest (fields.map fun field => field.2.nesting) + 1 := by
  rw [nesting, fold]
  show deepest (List.map _ (fields.map _)) + 1 = _
  rw [List.map_map]
  rfl

namespace Reading

def run? (limit : Nat) (reading : Reading) (lexemes : List Lexeme) : Option Reading :=
  lexemes.foldlM (step? limit) reading

theorem run?_cons (limit : Nat) (reading : Reading) (lexeme : Lexeme) (rest : List Lexeme) :
    run? limit reading (lexeme :: rest) =
      (step? limit reading lexeme).bind fun next => run? limit next rest := rfl

theorem run?_append (limit : Nat) (reading : Reading) (front back : List Lexeme) :
    run? limit reading (front ++ back) =
      (run? limit reading front).bind fun next => run? limit next back :=
  List.foldlM_append

theorem run?_next {limit : Nat} {reading next : Reading} {lexeme : Lexeme}
    (step : step? limit reading lexeme = some next) (rest : List Lexeme) :
    run? limit reading (lexeme :: rest) = run? limit next rest := by
  rw [run?_cons, step, Option.bind_some]

/-- What is made of the lexemes of a value where a value is expected. -/
def Takes (limit : Nat) (json : Json) : Prop :=
  ∀ outer rest, outer.length ≤ limit →
    run? limit (.expectValue outer) (json.fold Lexeme.layout ++ rest) =
      if outer.length + json.nesting ≤ limit then run? limit (complete json outer) rest else none

variable {limit : Nat}

theorem guard_deepest_cons {α : Type} (depth first : Nat) (others : List Nat) (result : Option α) :
    (if depth + first ≤ limit then if depth + deepest others ≤ limit then result else none else none) =
      if depth + deepest (first :: others) ≤ limit then result else none := by
  have both : depth + deepest (first :: others) ≤ limit ↔
      depth + first ≤ limit ∧ depth + deepest others ≤ limit := by
    show depth + max first (deepest others) ≤ limit ↔ _
    omega
  rw [if_congr both rfl rfl, ite_and]

theorem exists_first_lexeme (json : Json) :
    ∃ first rest, json.fold Lexeme.layout = first :: rest ∧ first ≠ .closeArray := by
  cases json <;> rw [fold] <;> exact ⟨_, _, rfl, Lexeme.noConfusion⟩

theorem run?_opened (outer : List Frame) (item : Json) (rest : List Lexeme) :
    run? limit (.opened outer) (item.fold Lexeme.layout ++ rest) =
      run? limit (.expectValue (.array [] :: outer)) (item.fold Lexeme.layout ++ rest) := by
  obtain ⟨first, later, lexemes, begins⟩ := exists_first_lexeme item
  have step : step? limit (.opened outer) first = step? limit (.expectValue (.array [] :: outer)) first :=
    if_neg begins
  rw [lexemes, List.cons_append, run?_cons, run?_cons, step]

theorem run?_items {first : Json} {others : List Json} (each : ∀ item ∈ first :: others, Takes limit item)
    (reversed : List Json) {outer : List Frame} (room : outer.length < limit) (rest : List Lexeme) :
    run? limit (.expectValue (.array reversed :: outer))
        ([.comma].intercalate ((first :: others).map fun item => item.fold Lexeme.layout) ++
          .closeArray :: rest) =
      if outer.length + 1 + deepest ((first :: others).map nesting) ≤ limit then
        run? limit (complete (.array (reversed.reverse ++ first :: others)) outer) rest
      else none := by
  induction others generalizing first reversed with
  | nil =>
    have here := each first List.mem_cons_self (.array reversed :: outer) (.closeArray :: rest) room
    have ended : run? limit (complete first (.array reversed :: outer)) (.closeArray :: rest) =
        run? limit (complete (.array (first :: reversed).reverse) outer) rest := run?_next rfl rest
    rw [List.map_singleton, List.intercalate_singleton, here, ended, List.reverse_cons]
    simp [deepest]
  | cons next more ih =>
    have here := each first List.mem_cons_self (.array reversed :: outer)
    have later := ih (fun item member => each item (List.mem_cons_of_mem first member)) (first :: reversed)
    have comma : ∀ behind, run? limit (complete first (.array reversed :: outer)) (.comma :: behind) =
        run? limit (.expectValue (.array (first :: reversed) :: outer)) behind := run?_next rfl
    simp only [List.map_cons] at later ⊢
    rw [List.intercalate_cons_cons, List.append_assoc, List.append_assoc, here _ room,
      List.singleton_append, comma, later]
    simp only [List.length_cons, List.reverse_cons, List.append_assoc, List.singleton_append]
    exact guard_deepest_cons (outer.length + 1) first.nesting _ _

def ofField (field : String × Json) : List Lexeme :=
  .string field.1 :: .colon :: field.2.fold Lexeme.layout

theorem run?_field {field : String × Json} (takes : Takes limit field.2) {front : List (String × Json)}
    (unused : field.1 ∉ Fields.names front) (closable : Bool) {outer : List Frame}
    (room : outer.length < limit) (rest : List Lexeme) :
    run? limit (.expectName front closable outer) (ofField field ++ rest) =
      if outer.length + 1 + field.2.nesting ≤ limit then
        run? limit (.afterField (front ++ [field]) outer) rest
      else none := by
  have colon : ∀ behind, run? limit (.expectColon front field.1 outer) (.colon :: behind) =
      run? limit (.expectValue (.object front field.1 :: outer)) behind := run?_next rfl
  have value := takes (.object front field.1 :: outer) rest room
  rw [complete, Fields.put_of_not_mem unused] at value
  exact (run?_next rfl _).trans ((colon _).trans value)

theorem run?_fields {first : String × Json} {others : List (String × Json)}
    (each : ∀ field ∈ first :: others, Takes limit field.2) (front : List (String × Json))
    (distinct : (Fields.names (front ++ first :: others)).Nodup) (closable : Bool) {outer : List Frame}
    (room : outer.length < limit) (rest : List Lexeme) :
    run? limit (.expectName front closable outer)
        ([.comma].intercalate ((first :: others).map ofField) ++ .closeObject :: rest) =
      if outer.length + 1 + deepest ((first :: others).map fun field => field.2.nesting) ≤ limit then
        run? limit (complete (.object (front ++ first :: others)) outer) rest
      else none := by
  induction others generalizing first front closable with
  | nil =>
    have here := run?_field (each first List.mem_cons_self) (Fields.not_mem_names_front distinct)
      closable room
    have ended : run? limit (.afterField (front ++ [first]) outer) (.closeObject :: rest) =
        run? limit (complete (.object (front ++ [first])) outer) rest := run?_next rfl rest
    rw [List.map_singleton, List.intercalate_singleton, here, ended]
    simp [deepest]
  | cons next more ih =>
    have here := run?_field (each first List.mem_cons_self) (Fields.not_mem_names_front distinct)
      closable room
    have later := ih (fun field member => each field (List.mem_cons_of_mem first member)) (front ++ [first])
      (by simpa using distinct) false
    have comma : ∀ behind, run? limit (.afterField (front ++ [first]) outer) (.comma :: behind) =
        run? limit (.expectName (front ++ [first]) false outer) behind := run?_next rfl
    simp only [List.map_cons] at later ⊢
    rw [List.intercalate_cons_cons, List.append_assoc, List.append_assoc, here, List.singleton_append,
      comma, later]
    simp only [List.append_assoc, List.singleton_append]
    exact guard_deepest_cons (outer.length + 1) first.2.nesting _ _

theorem guard_opened {α : Type} (depth inner : Nat) (result : Option α) :
    (if depth < limit then if depth + 1 + inner ≤ limit then result else none else none) =
      if depth + (inner + 1) ≤ limit then result else none := by
  rw [← ite_and]
  exact if_congr (by omega) rfl rfl

theorem takes_single {json : Json} {lexeme : Lexeme} (shown : json.fold Lexeme.layout = [lexeme])
    (flat : json.nesting = 0)
    (step : ∀ outer, step? limit (.expectValue outer) lexeme = some (complete json outer)) :
    Takes limit json := by
  intro outer rest bounded
  rw [shown, flat, Nat.add_zero, if_pos bounded]
  exact run?_next (step outer) rest

theorem takes_array {items : List Json} (each : ∀ item ∈ items, Takes limit item) :
    Takes limit (.array items) := by
  intro outer rest bounded
  rw [nesting_array, ← guard_opened, fold]
  show run? limit (.expectValue outer) (.openArray :: ([.comma].intercalate _ ++ [.closeArray] ++ rest)) = _
  rw [List.append_assoc, List.singleton_append]
  by_cases room : outer.length < limit
  · have opened : ∀ behind, run? limit (.expectValue outer) (.openArray :: behind) =
        run? limit (.opened outer) behind := run?_next (if_pos room)
    rw [opened, if_pos room]
    cases items with
    | nil => exact (run?_next rfl rest).trans (if_pos (Nat.succ_le_of_lt room)).symm
    | cons first others =>
      have inside := run?_items each [] room rest
      cases others with
      | nil =>
        simp only [List.map_singleton, List.intercalate_singleton] at inside ⊢
        rw [run?_opened]
        exact inside
      | cons next more =>
        simp only [List.map_cons, List.intercalate_cons_cons, List.append_assoc] at inside ⊢
        rw [run?_opened]
        exact inside
  · have refused : step? limit (.expectValue outer) .openArray = none := if_neg room
    rw [run?_cons, refused, Option.bind_none, if_neg room]

theorem takes_object {fields : List (String × Json)} (distinct : (Fields.names fields).Nodup)
    (each : ∀ field ∈ fields, Takes limit field.2) : Takes limit (.object fields) := by
  intro outer rest bounded
  rw [nesting_object, ← guard_opened, fold]
  show run? limit (.expectValue outer)
    (.openObject :: ([.comma].intercalate ((fields.map _).map _) ++ [.closeObject] ++ rest)) = _
  rw [List.append_assoc, List.singleton_append, List.map_map]
  by_cases room : outer.length < limit
  · have opened : ∀ behind, run? limit (.expectValue outer) (.openObject :: behind) =
        run? limit (.expectName [] true outer) behind := run?_next (if_pos room)
    rw [opened, if_pos room]
    cases fields with
    | nil => exact (run?_next rfl rest).trans (if_pos (Nat.succ_le_of_lt room)).symm
    | cons first others => exact run?_fields each [] distinct true room rest
  · have refused : step? limit (.expectValue outer) .openObject = none := if_neg room
    rw [run?_cons, refused, Option.bind_none, if_neg room]

theorem takes_of_legible {json : Json} (legible : json.Legible) : Takes limit json := by
  induction legible with
  | null => exact takes_single (by rw [fold]; rfl) (by rw [nesting, fold]; rfl) fun _ => rfl
  | bool value => exact takes_single (by rw [fold]; rfl) (by rw [nesting, fold]; rfl) fun _ => rfl
  | int value inRange => exact takes_single (by rw [fold]; rfl) (by rw [nesting, fold]; rfl) fun _ => rfl
  | string text => exact takes_single (by rw [fold]; rfl) (by rw [nesting, fold]; rfl) fun _ => rfl
  | array each ih => exact takes_array ih
  | object distinct each ih => exact takes_object distinct ih

end Reading

theorem ReaderState.step?_eq (limit : Nat) (state : ReaderState) (letter : Char) :
    step? limit state letter =
      (Lexeme.step? state.lexing letter).bind fun next =>
        (Reading.run? limit state.reading next.2).map (⟨next.1, ·⟩) := by
  unfold step?
  cases Lexeme.step? state.lexing letter with
  | none => rfl
  | some next => cases found : next.2.foldlM (Reading.step? limit) state.reading <;> simp [Reading.run?, found]

def ReaderState.value? (limit : Nat) (state : ReaderState) (letters : List Char) : Option Json :=
  (Lexeme.ofLetters? state.lexing letters).bind fun lexemes =>
    (Reading.run? limit state.reading lexemes).bind Reading.result?

theorem ReaderState.value?_nil (limit : Nat) (state : ReaderState) :
    state.value? limit [] =
      (Lexeme.finish? state.lexing).bind fun ended =>
        (Reading.run? limit state.reading ended.toList).bind Reading.result? :=
  Option.bind_map ..

theorem ReaderState.value?_cons (limit : Nat) (state : ReaderState) (letter : Char) (rest : List Char) :
    state.value? limit (letter :: rest) =
      (step? limit state letter).bind fun next => next.value? limit rest := by
  rw [step?_eq, value?, Lexeme.ofLetters?]
  cases Lexeme.step? state.lexing letter with
  | none => rfl
  | some next =>
    simp only [Option.bind_some, Option.bind_map, Function.comp_def, Reading.run?_append, value?]
    cases Reading.run? limit state.reading next.2 with
    | none => cases Lexeme.ofLetters? next.1 rest <;> rfl
    | some reading => rfl

theorem readWithin?_eq (limit : Nat) (letters : List Char) :
    readWithin? limit letters = (ReaderState.mk .between (.expectValue [])).value? limit letters := by
  have each : ∀ state : ReaderState, state.value? limit letters =
      (letters.foldlM (ReaderState.step? limit) state).bind fun last => last.value? limit [] := by
    induction letters with
    | nil => exact fun state => rfl
    | cons letter rest ih =>
      intro state
      rw [ReaderState.value?_cons, List.foldlM_cons]
      simp only [ih]
      exact (Option.bind_assoc ..).symm
  rw [each]
  simp only [ReaderState.value?_nil]
  rfl

/-- The compact text of a legible value is read back if no more containers are open at once than are
allowed, and not read if there are. -/
theorem readWithin?_compact (limit : Nat) {json : Json} (legible : json.Legible) :
    readWithin? limit (json.fold compactLayout) = if json.nesting ≤ limit then some json else none := by
  have spelled := Lexeme.spells_fold legible [] (by simp [Lexeme.Ends])
  have taken := Reading.takes_of_legible legible [] [] (Nat.zero_le limit)
  simp only [List.append_nil, List.length_nil, Nat.zero_add] at spelled taken
  rw [readWithin?_eq, ReaderState.value?, spelled]
  show (Reading.run? limit (.expectValue []) (json.fold Lexeme.layout ++ [])).bind Reading.result? = _
  rw [List.append_nil, taken]
  split <;> rfl

theorem parse?_text {json : Json} (legible : json.Legible) :
    parse? json.text = if json.nesting ≤ depthLimit then some json else none := by
  rw [parse?, text, String.toList_ofList]
  exact readWithin?_compact depthLimit legible

end DocPath.Json
