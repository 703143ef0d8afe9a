import Mathlib.Data.List.TakeWhile
import DocPath.Json.Reader
import DocPath.Json.Text

/-! The lexemes of compact text. A text falls into lexemes in one way, and the compact text of a value whose
numbers are read back falls into the brackets, commas, colons, names and scalars that it was put
together from. Words and numerals go on until something ends them, so this is said of a value with a
text behind it that ends the value. -/

namespace DocPath

theorem head?_toDigits {value : Nat} (positive : 0 < value) :
    (Nat.toDigits 10 value).head? ≠ some '0' := by
  induction value using Nat.strongRecOn with
  | ind value ih =>
    by_cases small : value < 10
    · have table : ∀ digit < 10, 0 < digit → Nat.digitChar digit ≠ '0' := by decide
      rw [Nat.toDigits_of_lt_base small]
      simpa using table value small positive
    · rw [Nat.toDigits_of_base_le (by decide) (Nat.not_lt.mp small),
        List.head?_append, Option.or_of_isSome (by simp [Nat.toDigits_ne_nil])]
      exact ih (value / 10) (by omega) (by omega)

namespace Numeral

theorem parse?_digits (negative : Bool) (value : Nat) :
    parse? (if negative then '-' :: Nat.toDigits 10 value else Nat.toDigits 10 value) =
      some ⟨negative, Nat.toDigits 10 value, [], 0, true⟩ := by
  have decimal : ∀ digit ∈ Nat.toDigits 10 value, digit.isDigit = true :=
    fun _ => Nat.isDigit_of_mem_toDigits (by decide) (by decide)
  have spanned : spanDigits (Nat.toDigits 10 value) = (Nat.toDigits 10 value, []) :=
    Prod.ext (List.takeWhile_eq_self_iff.mpr decimal) (List.dropWhile_eq_nil_iff.mpr decimal)
  have canonical : (Nat.toDigits 10 value).head? = some '0' → (Nat.toDigits 10 value).length = 1 := by
    intro leads
    have zero : value = 0 := Nat.eq_zero_of_not_pos fun positive => head?_toDigits positive leads
    rw [zero, Nat.toDigits_zero]
    rfl
  have unsigned : ∀ rest, Nat.toDigits 10 value ≠ '-' :: rest := by
    intro rest same
    have digit := decimal '-' (same ▸ List.mem_cons_self)
    cases digit
  have kept : (guard (Nat.toDigits 10 value ≠ [] ∧ ((Nat.toDigits 10 value).head? = some '0' →
      (Nat.toDigits 10 value).length = 1)) : Option Unit) = some () :=
    if_pos ⟨Nat.toDigits_ne_nil, canonical⟩
  unfold parse?
  split
  next sign digits taken =>
    obtain ⟨rfl, rfl⟩ : sign = negative ∧ digits = Nat.toDigits 10 value := by
      cases negative with
      | true =>
        cases taken
        exact ⟨rfl, rfl⟩
      | false =>
        split at taken
        next rest same => exact absurd same (unsigned rest)
        next =>
          cases taken
          exact ⟨rfl, rfl⟩
    rw [spanned]
    dsimp only
    rw [kept]
    rfl

end Numeral

theorem Number.parse?_letters_int (value : Int) (inRange : InRange value) :
    parse? (letters (.int value inRange)) = some (.int value inRange) := by
  have sign : (if value < 0 then -(value.natAbs : Int) else value.natAbs) = value := by
    split <;> omega
  have read := Numeral.parse?_digits (decide (value < 0)) value.natAbs
  simp only [decide_eq_true_eq] at read
  unfold parse? letters
  rw [read]
  unfold Numeral.number?
  simp only [Option.bind_some, Nat.ofDigitChars_ten_toDigits, decide_eq_true_eq, sign]
  rw [dif_pos]
  exact ⟨trivial, inRange, by omega⟩

namespace Json

/-- A value whose numbers are integers and whose objects tell their fields apart. -/
inductive Legible : Json → Prop where
  | null : Legible .null
  | bool (value : Bool) : Legible (.bool value)
  | int (value : Int) (inRange : Number.InRange value) : Legible (.number (.int value inRange))
  | string (text : String) : Legible (.string text)
  | array {items : List Json} (each : ∀ item ∈ items, Legible item) : Legible (.array items)
  | object {fields : List (String × Json)} (distinct : (Fields.names fields).Nodup)
      (each : ∀ field ∈ fields, Legible field.2) : Legible (.object fields)

namespace Lexeme

def ofLetters? : Lexing → List Char → Option (List Lexeme)
  | state, [] => (finish? state).map Option.toList
  | state, letter :: rest =>
      (step? state letter).bind fun next => (ofLetters? next.1 rest).map (next.2 ++ ·)

theorem ofLetters?_cons {state next : Lexing} {letter : Char}
    (step : step? state letter = some (next, [])) (rest : List Char) :
    ofLetters? state (letter :: rest) = ofLetters? next rest := by
  rw [ofLetters?, step]
  simp

def Ends (rest : List Char) : Prop := ∀ letter ∈ rest.head?, (ofPunctuation? letter).isSome = true

theorem mem_of_punctuation {letter : Char} {mark : Lexeme} (found : ofPunctuation? letter = some mark) :
    letter ∈ ['[', ']', '{', '}', ',', ':'] := by
  unfold ofPunctuation? at found
  grind

theorem step?_punctuation {state : Lexing} {letter : Char} {mark : Lexeme} {ended : Option Lexeme}
    (finished : finish? state = some ended) (found : ofPunctuation? letter = some mark) :
    step? state letter = some (.between, ended.toList ++ [mark]) := by
  have apart : ∀ letter ∈ ['[', ']', '{', '}', ',', ':'],
      isBlank letter = false ∧ letter ≠ '"' ∧ ¬(letter.isDigit = true ∨ letter = '-') ∧
        letter.isAlpha = false ∧ isNumeralLetter letter = false := by
    simp [isBlank, isNumeralLetter]
  obtain ⟨notBlank, notQuote, notNumeral, notAlpha, notIn⟩ := apart letter (mem_of_punctuation found)
  have begun : start? letter = some (.between, some mark) := by
    simp [start?, notBlank, notQuote, notNumeral, notAlpha, found]
  have turned : turn? state letter = some (.between, ended.toList ++ [mark]) := by
    simp [turn?, finished, begun]
  cases state with
  | between => exact turned
  | word letters => rw [step?, notAlpha]; exact turned
  | numeral letters => rw [step?, notIn]; exact turned
  | string letters escape => cases finished

theorem ofLetters?_ends {state : Lexing} {ended : Lexeme} {rest : List Char}
    (finished : finish? state = some (some ended)) (ends : Ends rest) :
    ofLetters? state rest = (ofLetters? .between rest).map ([ended] ++ ·) := by
  cases rest with
  | nil =>
    rw [ofLetters?, ofLetters?, finished]
    rfl
  | cons letter later =>
    obtain ⟨mark, found⟩ := Option.isSome_iff_exists.mp (ends letter rfl)
    rw [ofLetters?, ofLetters?, step?_punctuation finished found, step?_punctuation rfl found,
      Option.bind_some, Option.bind_some]
    cases ofLetters? .between later <;> rfl

/-- The letters fall into the lexemes, whatever ending rest is behind them. -/
def Spells (letters : List Char) (lexemes : List Lexeme) : Prop :=
  ∀ rest, Ends rest → ofLetters? .between (letters ++ rest) = (ofLetters? .between rest).map (lexemes ++ ·)

theorem spells_nil : Spells [] [] := by
  intro rest ends
  simp

theorem Spells.punctuation {letters later : List Char} {lexemes others : List Lexeme} {letter : Char}
    {mark : Lexeme} (front : Spells letters lexemes) (found : ofPunctuation? letter = some mark)
    (back : Spells later others) : Spells (letters ++ letter :: later) (lexemes ++ mark :: others) := by
  intro rest ends
  have begins : Ends (letter :: (later ++ rest)) := by
    intro first same
    cases same
    rw [found]
    rfl
  calc ofLetters? .between (letters ++ letter :: later ++ rest)
      = ofLetters? .between (letters ++ letter :: (later ++ rest)) := by simp
    _ = (ofLetters? .between (letter :: (later ++ rest))).map (lexemes ++ ·) := front _ begins
    _ = ((ofLetters? .between rest).map (mark :: others ++ ·)).map (lexemes ++ ·) := by
      rw [ofLetters?, step?_punctuation rfl found, Option.bind_some, back rest ends]
      cases ofLetters? .between rest <;> rfl
    _ = (ofLetters? .between rest).map (lexemes ++ mark :: others ++ ·) := by
      cases ofLetters? .between rest <;> simp

theorem spells_commaSeparated {α : Type} {items : List α} {text : α → List Char}
    {lexemes : α → List Lexeme} (each : ∀ item ∈ items, Spells (text item) (lexemes item)) :
    Spells (commaSeparated (items.map text)) ([.comma].intercalate (items.map lexemes)) := by
  unfold commaSeparated
  induction items with
  | nil => exact spells_nil
  | cons item rest ih =>
    have here := each item List.mem_cons_self
    have later := ih fun other member => each other (List.mem_cons_of_mem item member)
    cases rest with
    | nil => simpa using here
    | cons next others =>
      have joined := here.punctuation (show ofPunctuation? ',' = some .comma from rfl) later
      simpa [List.intercalate_cons_cons] using joined

theorem spells_run {state : List Char → Lexing} {first : Char} {letters : List Char} {lexeme : Lexeme}
    (begins : step? .between first = some (state [first], []))
    (goesOn : ∀ before, ∀ letter ∈ letters, step? (state before) letter = some (state (letter :: before), []))
    (finished : finish? (state (first :: letters).reverse) = some (some lexeme)) :
    Spells (first :: letters) [lexeme] := by
  intro rest ends
  have run : ∀ before, ofLetters? (state before) (letters ++ rest) =
      ofLetters? (state (letters.reverse ++ before)) rest := by
    clear begins finished
    induction letters with
    | nil => exact fun before => rfl
    | cons letter others ih =>
      intro before
      rw [List.cons_append, ofLetters?_cons (goesOn before letter List.mem_cons_self),
        ih fun before other member => goesOn before other (List.mem_cons_of_mem letter member)]
      simp
  rw [List.cons_append, ofLetters?_cons begins, run, ← List.reverse_cons, ofLetters?_ends finished ends]

theorem spells_word {first : Char} {letters : List Char} {lexeme : Lexeme}
    (begins : start? first = some (.word [first], none)) (alphabetic : letters.all Char.isAlpha = true)
    (read : ofWord? (first :: letters) = some lexeme) : Spells (first :: letters) [lexeme] := by
  have step : step? .between first = some (.word [first], []) := by simp [step?, turn?, finish?, begins]
  refine spells_run step ?_ (by simp [finish?, read])
  intro before letter member
  rw [step?, if_pos (List.all_eq_true.mp alphabetic letter member)]

theorem spells_numeral {first : Char} {letters : List Char} {value : Number}
    (begins : first.isDigit = true ∨ first = '-') (decimal : ∀ letter ∈ letters, letter.isDigit = true)
    (read : Number.parse? (first :: letters) = some value) : Spells (first :: letters) [.number value] := by
  have notBlank : isBlank first = false ∧ first ≠ '"' := by
    have blanks : ∀ blank ∈ [' ', '\t', '\n', '\r', '"'], ¬(blank.isDigit = true ∨ blank = '-') := by
      simp
    refine ⟨?_, fun quote => blanks first (by simp [quote]) begins⟩
    rw [← Bool.not_eq_true]
    intro blank
    exact blanks first (by simpa [isBlank, or_assoc] using Or.inl blank) begins
  have step : step? .between first = some (.numeral [first], []) := by
    simp [step?, turn?, finish?, start?, notBlank, begins]
  refine spells_run step ?_ (by simp [finish?, read])
  intro before letter member
  have numeral : isNumeralLetter letter = true := by simp [isNumeralLetter, decimal letter member]
  rw [step?, if_pos numeral]

theorem spells_literal (value : Bool) : Spells (literal value) [.bool value] := by
  cases value with
  | true => exact spells_word rfl rfl rfl
  | false => exact spells_word rfl rfl rfl

theorem spells_int (value : Int) (inRange : Number.InRange value) :
    Spells (Number.letters (.int value inRange)) [.number (.int value inRange)] := by
  have read := Number.parse?_letters_int value inRange
  have decimal : ∀ digit ∈ Nat.toDigits 10 value.natAbs, digit.isDigit = true :=
    fun _ => Nat.isDigit_of_mem_toDigits (by decide) (by decide)
  rw [Number.letters] at read ⊢
  by_cases negative : value < 0
  · rw [if_pos negative] at read ⊢
    exact spells_numeral (Or.inr rfl) decimal read
  · rw [if_neg negative] at read ⊢
    have some : Nat.toDigits 10 value.natAbs ≠ [] := Nat.toDigits_ne_nil
    obtain ⟨first, others, digits⟩ := List.exists_cons_of_ne_nil some
    rw [digits] at read decimal ⊢
    exact spells_numeral (Or.inl (decimal first List.mem_cons_self))
      (fun digit member => decimal digit (List.mem_cons_of_mem first member)) read

theorem hexValue?_digitChar {digit : Nat} (small : digit < 16) :
    hexValue? (Nat.digitChar digit) = some digit := by
  have table : ∀ digit < 16, hexValue? (Nat.digitChar digit) = some digit := by decide
  exact table digit small

theorem step?_hex (before : List Char) {digits : Nat} (value : Nat) {digit : Nat} (more : digits ≠ 3)
    (small : digit < 16) :
    step? (.string before (some (.hex none digits value))) (Nat.digitChar digit) =
      some (.string before (some (.hex none (digits + 1) (16 * value + digit))), []) := by
  simp [step?, stepEscape?, hexValue?_digitChar small, more]

theorem step?_lastHex (before : List Char) {value digit : Nat} (small : digit < 16)
    (plain : 16 * value + digit < 0xD800) :
    step? (.string before (some (.hex none 3 value))) (Nat.digitChar digit) =
      some (.string (Char.ofNat (16 * value + digit) :: before) none, []) := by
  have lead : ¬(0xD800 ≤ 16 * value + digit ∧ 16 * value + digit < 0xDC00) := by omega
  have second : ¬(0xDC00 ≤ 16 * value + digit ∧ 16 * value + digit < 0xE000) := by omega
  simp [step?, stepEscape?, hexValue?_digitChar small, closeHex?, lead, second]

theorem ofLetters?_shortEscape {mark letter : Char} (meant : ofShortEscape? mark = some letter)
    (notHex : mark ≠ 'u') (before rest : List Char) :
    ofLetters? (.string before none) ('\\' :: mark :: rest) =
      ofLetters? (.string (letter :: before) none) rest := by
  have opened : step? (.string before none) '\\' = some (.string before (some (.begun none)), []) := rfl
  have closed : step? (.string before (some (.begun none))) mark =
      some (.string (letter :: before) none, []) := by
    simp [step?, stepEscape?, notHex, meant]
  rw [ofLetters?_cons opened, ofLetters?_cons closed]

theorem ofLetters?_hexEscape {letter : Char} (control : letter.toNat < 32) (before rest : List Char) :
    ofLetters? (.string before none) ('\\' :: 'u' :: '0' :: '0' :: Nat.digitChar (letter.toNat / 16) ::
        Nat.digitChar (letter.toNat % 16) :: rest) =
      ofLetters? (.string (letter :: before) none) rest := by
  have opened : step? (.string before none) '\\' = some (.string before (some (.begun none)), []) := rfl
  have hex : step? (.string before (some (.begun none))) 'u' =
      some (.string before (some (.hex none 0 0)), []) := rfl
  have first : step? (.string before (some (.hex none 0 0))) '0' =
      some (.string before (some (.hex none 1 0)), []) := rfl
  have second : step? (.string before (some (.hex none 1 0))) '0' =
      some (.string before (some (.hex none 2 0)), []) := rfl
  have high : letter.toNat / 16 < 16 := by omega
  have low : letter.toNat % 16 < 16 := by omega
  have whole : 16 * (16 * 0 + letter.toNat / 16) + letter.toNat % 16 = letter.toNat := by omega
  rw [ofLetters?_cons opened, ofLetters?_cons hex, ofLetters?_cons first, ofLetters?_cons second,
    ofLetters?_cons (step?_hex before 0 (by decide) high),
    ofLetters?_cons (step?_lastHex before low (by omega)), whole, Char.ofNat_toNat]

theorem ofLetters?_escape (letter : Char) (before rest : List Char) :
    ofLetters? (.string before none) (escape letter ++ rest) =
      ofLetters? (.string (letter :: before) none) rest := by
  unfold escape
  split
  next quote => subst quote; exact ofLetters?_shortEscape rfl (by decide) before rest
  split
  next backslash => subst backslash; exact ofLetters?_shortEscape rfl (by decide) before rest
  split
  next backspace => subst backspace; exact ofLetters?_shortEscape rfl (by decide) before rest
  split
  next formFeed => subst formFeed; exact ofLetters?_shortEscape rfl (by decide) before rest
  split
  next lineFeed => subst lineFeed; exact ofLetters?_shortEscape rfl (by decide) before rest
  split
  next carriage => subst carriage; exact ofLetters?_shortEscape rfl (by decide) before rest
  split
  next tabulator => subst tabulator; exact ofLetters?_shortEscape rfl (by decide) before rest
  split
  next control => exact ofLetters?_hexEscape control before rest
  next notQuote notBackslash _ _ _ _ _ printed =>
    have step : step? (.string before none) letter = some (.string (letter :: before) none, []) := by
      simp [step?, notQuote, notBackslash, printed]
    exact ofLetters?_cons step rest

theorem spells_quoted (text : String) : Spells (quoted text) [.string text] := by
  intro rest ends
  have read : ∀ (letters before : List Char),
      ofLetters? (.string before none) (letters.flatMap escape ++ '"' :: rest) =
        ofLetters? (.string (letters.reverse ++ before) none) ('"' :: rest) := by
    intro letters
    induction letters with
    | nil => exact fun before => rfl
    | cons letter others ih =>
      intro before
      rw [List.flatMap_cons, List.append_assoc, ofLetters?_escape, ih]
      simp
  have opened : step? .between '"' = some (.string [] none, []) := rfl
  have closed : step? (.string text.toList.reverse none) '"' = some (.between, [.string text]) := by
    simp [step?]
  calc ofLetters? .between (quoted text ++ rest)
      = ofLetters? .between ('"' :: (text.toList.flatMap escape ++ '"' :: rest)) := by simp [quoted]
    _ = ofLetters? (.string (text.toList.reverse ++ []) none) ('"' :: rest) := by
      rw [ofLetters?_cons opened, read]
    _ = (ofLetters? .between rest).map ([.string text] ++ ·) := by
      rw [List.append_nil, ofLetters?, closed, Option.bind_some]

def layout : Algebra (List Lexeme) where
  null := [.null]
  bool value := [.bool value]
  number value := [.number value]
  string text := [.string text]
  array items := .openArray :: ([.comma].intercalate items ++ [.closeArray])
  object _ fields :=
    .openObject :: ([.comma].intercalate (fields.map fun field => .string field.1 :: .colon :: field.2) ++
      [.closeObject])

theorem Spells.enclosed {letters : List Char} {lexemes : List Lexeme} {first last : Char}
    {opening closing : Lexeme} (inner : Spells letters lexemes)
    (begins : ofPunctuation? first = some opening) (ends : ofPunctuation? last = some closing) :
    Spells (first :: (letters ++ [last])) (opening :: (lexemes ++ [closing])) :=
  spells_nil.punctuation begins (inner.punctuation ends spells_nil)

/-- The compact text of a value falls into the lexemes that it was put together from. -/
theorem spells_fold {json : Json} (legible : json.Legible) :
    Spells (json.fold compactLayout) (json.fold layout) := by
  induction legible with
  | null =>
    rw [fold, fold]
    exact spells_word rfl rfl rfl
  | bool value =>
    rw [fold, fold]
    exact spells_literal value
  | int value inRange =>
    rw [fold, fold]
    exact spells_int value inRange
  | string text =>
    rw [fold, fold]
    exact spells_quoted text
  | array each ih =>
    rw [fold, fold]
    exact (spells_commaSeparated ih).enclosed rfl rfl
  | object distinct each ih =>
    rw [fold, fold, ← List.length_map fun field : String × Json => (field.1, field.2.fold compactLayout),
      compactLayout_object]
    simp only [layout, List.map_map]
    refine Spells.enclosed (spells_commaSeparated fun field member => ?_) rfl rfl
    exact (spells_quoted field.1).punctuation rfl (ih field member)

end Lexeme
end Json
end DocPath
