import Mathlib.Data.List.TakeWhile
import DocPath.Path.Parse

/-! The grammar of written paths. A path starts with a key or with digits in brackets and goes on with
keys behind points and with digits in brackets; a key has letters and holds no delimiter, and digits
name an index, with or without zeros in front. No text is made of such pieces in two ways. -/

namespace DocPath

/-- A key that keeps its meaning when it is written. -/
def Token.Writable : Token → Prop
  | .key name => name ≠ "" ∧ ∀ letter ∈ name.toList, Path.isDelimiter letter = false
  | .index _ => True

instance (token : Token) : Decidable token.Writable :=
  match token with
  | .key name =>
      decidable_of_iff (name ≠ "" ∧ name.toList.all (fun letter => !Path.isDelimiter letter) = true)
        (by simp [Token.Writable])
  | .index _ => .isTrue trivial

structure Digits where
  letters : List Char
  nonempty : letters ≠ []
  decimal : ∀ letter ∈ letters, letter.isDigit = true
  inRange : Nat.ofDigitChars 10 letters 0 < 0x10000000000000000

def Digits.index (digits : Digits) : Index := ⟨Nat.ofDigitChars 10 digits.letters 0, digits.inRange⟩

/-- A piece of a written path: a key, or the digits between two brackets. -/
inductive Segment where
  | key (name : String) (writable : (Token.key name).Writable)
  | index (digits : Digits)

namespace Segment

def token : Segment → Token
  | .key name _ => .key name
  | .index digits => .index digits.index

def letters : Segment → List Char
  | .key name _ => name.toList
  | .index digits => '[' :: (digits.letters ++ [']'])

def continuation : Segment → List Char
  | .key name _ => '.' :: name.toList
  | .index digits => '[' :: (digits.letters ++ [']'])

/-- The text that the pieces make: nothing at all, or a start and a rest. -/
def spelling : List Segment → List Char
  | [] => []
  | first :: rest => first.letters ++ rest.flatMap continuation

theorem spelling_cons (first : Segment) (rest : List Segment) :
    spelling (first :: rest) = first.letters ++ rest.flatMap continuation := rfl

theorem spelling_concat {segments : List Segment} (nonempty : segments ≠ []) (last : Segment) :
    spelling (segments ++ [last]) = spelling segments ++ last.continuation := by
  cases segments with
  | nil => exact absurd rfl nonempty
  | cons first rest => simp [spelling]

theorem spelling_concat_index (segments : List Segment) (digits : Digits) :
    spelling (segments ++ [.index digits]) =
      spelling segments ++ '[' :: (digits.letters ++ [']']) := by
  cases segments with
  | nil => simp [spelling, letters]
  | cons first rest => rw [spelling_concat (List.cons_ne_nil first rest), continuation]

theorem spelling_concat_key {segments : List Segment} {name longer : String} {letter : Char}
    (writable : (Token.key name).Writable) (longerWritable : (Token.key longer).Writable)
    (grown : longer.toList = name.toList ++ [letter]) :
    spelling (segments ++ [.key longer longerWritable]) =
      spelling (segments ++ [.key name writable]) ++ [letter] := by
  cases segments with
  | nil => simp [spelling, letters, grown]
  | cons first rest => simp [spelling, continuation, grown]

theorem writable_token (segment : Segment) : segment.token.Writable := by
  cases segment with
  | key name writable => exact writable
  | index digits => trivial

end Segment

namespace Path

def Writable (path : Path) : Prop := ∀ token ∈ path, token.Writable

instance (path : Path) : Decidable (Writable path) :=
  inferInstanceAs (Decidable (∀ token ∈ path, token.Writable))

theorem isDelimiter_eq_false_iff {letter : Char} :
    isDelimiter letter = false ↔ letter ≠ '.' ∧ letter ≠ '[' ∧ letter ≠ ']' := by
  simp [isDelimiter, and_assoc]

theorem isDelimiter_of_isDigit {letter : Char} (digit : letter.isDigit = true) :
    isDelimiter letter = false := by
  rw [isDelimiter_eq_false_iff]
  refine ⟨?_, ?_, ?_⟩
  all_goals
    rintro rfl
    cases digit

theorem writable_key {letters : List Char} (nonempty : letters ≠ [])
    (plain : ∀ letter ∈ letters, isDelimiter letter = false) :
    (Token.key (String.ofList letters)).Writable := by
  constructor
  · intro empty
    apply nonempty
    rw [← String.toList_ofList (l := letters), empty]
    rfl
  · rw [String.toList_ofList]
    exact plain

theorem eq_of_append_eq {front back other rest : List Char}
    (plain : ∀ letter ∈ front, isDelimiter letter = false)
    (otherPlain : ∀ letter ∈ other, isDelimiter letter = false)
    (ends : ∀ letter ∈ back.head?, isDelimiter letter = true)
    (otherEnds : ∀ letter ∈ rest.head?, isDelimiter letter = true)
    (same : front ++ back = other ++ rest) : front = other ∧ back = rest := by
  have taken : ∀ before after : List Char, (∀ letter ∈ before, isDelimiter letter = false) →
      (∀ letter ∈ after.head?, isDelimiter letter = true) →
      (before ++ after).takeWhile (fun letter => !isDelimiter letter) = before := by
    intro before after plain ends
    rw [List.takeWhile_append_of_pos fun letter member => by rw [plain letter member]; rfl]
    cases after with
    | nil => exact List.append_nil before
    | cons letter more =>
      have stops : (!isDelimiter letter) = false := by rw [ends letter rfl]; rfl
      rw [List.takeWhile_cons, stops]
      exact List.append_nil before
  have fronts : front = other := by
    rw [← taken front back plain ends, same, taken other rest otherPlain otherEnds]
  subst fronts
  exact ⟨rfl, List.append_cancel_left same⟩

end Path

namespace Segment

theorem delimiter_of_mem_head? (segments : List Segment) :
    ∀ letter ∈ (segments.flatMap continuation).head?, Path.isDelimiter letter = true := by
  cases segments with
  | nil => simp
  | cons first rest => cases first <;> simp [continuation, Path.isDelimiter]

theorem letters_ne_nil (segment : Segment) : segment.letters ≠ [] := by
  cases segment with
  | key name writable => exact fun none => writable.1 (String.toList_eq_nil_iff.mp none)
  | index digits => exact List.cons_ne_nil _ _

theorem eq_of_letters_append {segment other : Segment} {back rest : List Char}
    (ends : ∀ letter ∈ back.head?, Path.isDelimiter letter = true)
    (otherEnds : ∀ letter ∈ rest.head?, Path.isDelimiter letter = true)
    (same : segment.letters ++ back = other.letters ++ rest) : segment = other ∧ back = rest := by
  have bracket : ∀ (name : String) (digits : Digits) (after more : List Char),
      (Token.key name).Writable → letters (.index digits) ++ after ≠ name.toList ++ more := by
    intro name digits after more writable same
    cases start : name.toList with
    | nil => exact writable.1 (String.toList_eq_nil_iff.mp start)
    | cons letter others =>
      rw [start] at same
      have plain := writable.2 letter (start ▸ List.mem_cons_self)
      rw [← (List.cons.inj same).1] at plain
      cases plain
  cases segment with
  | key name writable =>
    cases other with
    | key otherName otherWritable =>
      obtain ⟨names, rests⟩ := Path.eq_of_append_eq writable.2 otherWritable.2 ends otherEnds same
      obtain rfl := String.toList_inj.mp names
      exact ⟨rfl, rests⟩
    | index digits => exact absurd same.symm (bracket name digits _ _ writable)
  | index digits =>
    cases other with
    | key otherName otherWritable => exact absurd same (bracket otherName digits _ _ otherWritable)
    | index otherDigits =>
      have decimal : ∀ number : Digits, ∀ letter ∈ number.letters, Path.isDelimiter letter = false :=
        fun number letter member => Path.isDelimiter_of_isDigit (number.decimal letter member)
      have inner : digits.letters ++ ']' :: back = otherDigits.letters ++ ']' :: rest := by
        simpa [letters] using same
      obtain ⟨numbers, rests⟩ := Path.eq_of_append_eq (decimal digits) (decimal otherDigits)
        (by simp [Path.isDelimiter]) (by simp [Path.isDelimiter]) inner
      have sameDigits : digits = otherDigits := by
        cases digits
        cases otherDigits
        cases numbers
        rfl
      exact ⟨congrArg index sameDigits, (List.cons.inj rests).2⟩

theorem letters_append_of_continuation {segment other : Segment} {back rest : List Char}
    (same : segment.continuation ++ back = other.continuation ++ rest) :
    segment.letters ++ back = other.letters ++ rest := by
  cases segment with
  | key name writable =>
    cases other with
    | key otherName otherWritable => exact (List.cons.inj same).2
    | index digits => simp [continuation] at same
  | index digits =>
    cases other with
    | key otherName otherWritable => simp [continuation] at same
    | index otherDigits => exact same

theorem eq_of_flatMap_continuation {segments others : List Segment}
    (same : segments.flatMap continuation = others.flatMap continuation) : segments = others := by
  induction segments generalizing others with
  | nil =>
    cases others with
    | nil => rfl
    | cons other more => cases other <;> simp [continuation] at same
  | cons segment rest ih =>
    cases others with
    | nil => cases segment <;> simp [continuation] at same
    | cons other more =>
      obtain ⟨first, later⟩ := eq_of_letters_append (delimiter_of_mem_head? rest)
        (delimiter_of_mem_head? more) (letters_append_of_continuation same)
      rw [first, ih later]

theorem spelling_injective : Function.Injective spelling := by
  intro segments others same
  cases segments with
  | nil =>
    cases others with
    | nil => rfl
    | cons other more =>
      exact absurd (List.append_eq_nil_iff.mp same.symm).1 (letters_ne_nil other)
  | cons segment rest =>
    cases others with
    | nil => exact absurd (List.append_eq_nil_iff.mp same).1 (letters_ne_nil segment)
    | cons other more =>
      obtain ⟨first, later⟩ := eq_of_letters_append (delimiter_of_mem_head? rest)
        (delimiter_of_mem_head? more) same
      rw [first, eq_of_flatMap_continuation later]

end Segment

end DocPath
