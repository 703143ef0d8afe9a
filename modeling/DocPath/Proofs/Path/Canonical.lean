import Mathlib.Data.List.Induction
import DocPath.Proofs.Path.RoundTrip

/-! The written form of a path that was read from a text. It is the text without the zeros in front of
its indexes, since the digits of a number are the only digits of their value that no zero leads. -/

namespace DocPath.Path

/-- The letters without the zeros that lead a run of digits behind a bracket; one digit stays.
`leading` says that only such zeros stand between here and the bracket. -/
def withoutZeros : Bool → List Char → List Char
  | _, [] => []
  | leading, letter :: rest =>
      if leading ∧ letter = '0' ∧ rest.head?.any Char.isDigit then withoutZeros true rest
      else letter :: withoutZeros (letter = '[') rest

theorem withoutZeros_append {front : List Char} (plain : ∀ letter ∈ front, letter ≠ '[')
    (back : List Char) : withoutZeros false (front ++ back) = front ++ withoutZeros false back := by
  induction front with
  | nil => rfl
  | cons letter rest ih =>
    have here := plain letter List.mem_cons_self
    simp [withoutZeros, here, ih fun other later => plain other (List.mem_cons_of_mem letter later)]

theorem digitChar_toNat {digit : Char} (decimal : digit.isDigit = true) :
    digit.toNat - '0'.toNat < 10 ∧ Nat.digitChar (digit.toNat - '0'.toNat) = digit := by
  have bounds : 48 ≤ digit.toNat ∧ digit.toNat ≤ 57 := by
    simpa [Char.isDigit, UInt32.le_iff_toNat_le] using decimal
  have zero : '0'.toNat = 48 := rfl
  have table : ∀ value < 10, Nat.digitChar value = Char.ofNat (48 + value) := by decide
  have small : digit.toNat - '0'.toNat < 10 := by omega
  refine ⟨small, ?_⟩
  rw [table _ small, show 48 + (digit.toNat - '0'.toNat) = digit.toNat by omega, Char.ofNat_toNat]

theorem toDigits_ofDigitChars {first : Char} {rest : List Char}
    (decimal : ∀ digit ∈ first :: rest, digit.isDigit = true) (leads : first = '0' → rest = []) :
    Nat.toDigits 10 (Nat.ofDigitChars 10 (first :: rest) 0) = first :: rest := by
  induction rest using List.reverseRecOn with
  | nil =>
    obtain ⟨small, same⟩ := digitChar_toNat (decimal first List.mem_cons_self)
    have value : Nat.ofDigitChars 10 [first] 0 = first.toNat - '0'.toNat := by
      simp [Nat.ofDigitChars_cons]
    rw [value, Nat.toDigits_of_lt_base small, same]
  | append_singleton front last ih =>
    have notZero : first ≠ '0' := fun zero => by simpa using leads zero
    obtain ⟨small, same⟩ := digitChar_toNat (decimal last (by simp))
    have before := ih (fun digit member => decimal digit (by simp at member ⊢; tauto))
      (fun zero => absurd zero notZero)
    have positive : 0 < Nat.ofDigitChars 10 (first :: front) 0 := by
      rw [Nat.pos_iff_ne_zero]
      intro zero
      rw [zero, Nat.toDigits_zero] at before
      exact notZero (List.cons.inj before).1.symm
    rw [← List.cons_append, Nat.ofDigitChars_append, Nat.ofDigitChars_cons, Nat.ofDigitChars_nil,
      ← Nat.toDigits_append_toDigits (by decide) positive small, before,
      Nat.toDigits_of_lt_base small, same]

theorem withoutZeros_digits {digits : List Char} (nonempty : digits ≠ [])
    (decimal : ∀ digit ∈ digits, digit.isDigit = true) (back : List Char) :
    withoutZeros true (digits ++ ']' :: back) =
      Nat.toDigits 10 (Nat.ofDigitChars 10 digits 0) ++ ']' :: withoutZeros false back := by
  induction digits with
  | nil => exact absurd rfl nonempty
  | cons first rest ih =>
    have here := decimal first List.mem_cons_self
    have later : ∀ digit ∈ rest, digit.isDigit = true :=
      fun digit member => decimal digit (List.mem_cons_of_mem first member)
    by_cases leading : first = '0' ∧ rest ≠ []
    · obtain ⟨rfl, more⟩ := leading
      have next : (rest ++ ']' :: back).head?.any Char.isDigit = true := by
        cases rest with
        | nil => exact absurd rfl more
        | cons digit others => exact later digit List.mem_cons_self
      rw [List.cons_append, withoutZeros, if_pos ⟨rfl, rfl, next⟩, ih more later,
        Nat.ofDigitChars_cons]
      rfl
    · have stays : first = '0' → rest = [] := by
        intro zero
        by_contra more
        exact leading ⟨zero, more⟩
      have last : ¬(true = true ∧ first = '0' ∧ (rest ++ ']' :: back).head?.any Char.isDigit = true) := by
        rintro ⟨-, zero, next⟩
        rw [stays zero] at next
        cases next
      have notOpening : ∀ digit ∈ first :: rest, digit ≠ '[' := fun digit member =>
        (isDelimiter_eq_false_iff.mp (isDelimiter_of_isDigit (decimal digit member))).2.1
      have opening : decide (first = '[') = false := decide_eq_false (notOpening first List.mem_cons_self)
      rw [List.cons_append, withoutZeros, if_neg last, opening,
        withoutZeros_append fun digit member => notOpening digit (List.mem_cons_of_mem first member),
        toDigits_ofDigitChars decimal stays]
      rfl

theorem withoutZeros_letters (segment : Segment) (back : List Char) :
    withoutZeros false (segment.letters ++ back) =
        segment.token.letters ++ withoutZeros false back ∧
      withoutZeros false (segment.continuation ++ back) =
        segment.token.continuation ++ withoutZeros false back := by
  cases segment with
  | key name writable =>
    have plain : ∀ letter ∈ name.toList, letter ≠ '[' := fun letter member =>
      (isDelimiter_eq_false_iff.mp (writable.2 letter member)).2.1
    refine ⟨withoutZeros_append plain back, ?_⟩
    have behindPoint : ∀ letter ∈ '.' :: name.toList, letter ≠ '[' := by
      simpa using plain
    exact withoutZeros_append behindPoint back
  | index digits =>
    have written := withoutZeros_digits digits.nonempty digits.decimal back
    have whole : withoutZeros false ('[' :: (digits.letters ++ [']']) ++ back) =
        Token.letters (.index digits.index) ++ withoutZeros false back := by
      simpa [withoutZeros, Token.letters, Digits.index] using written
    exact ⟨whole, whole⟩

theorem withoutZeros_continuations (segments : List Segment) :
    withoutZeros false (segments.flatMap Segment.continuation) =
      (segments.map Segment.token).flatMap Token.continuation := by
  induction segments with
  | nil => rfl
  | cons segment rest ih =>
    rw [List.flatMap_cons, (withoutZeros_letters segment _).2, ih]
    rfl

theorem withoutZeros_spelling (segments : List Segment) :
    withoutZeros false (Segment.spelling segments) = letters (segments.map Segment.token) := by
  cases segments with
  | nil => rfl
  | cons first rest =>
    rw [Segment.spelling_cons, (withoutZeros_letters first _).1, withoutZeros_continuations]
    rfl

theorem length_withoutZeros_le (leading : Bool) (letters : List Char) :
    (withoutZeros leading letters).length ≤ letters.length := by
  induction letters generalizing leading with
  | nil => exact Nat.le_refl 0
  | cons letter rest ih =>
    rw [withoutZeros]
    split
    · exact Nat.le_succ_of_le (ih true)
    · exact Nat.succ_le_succ (ih _)

/-- A zero stands in front of another digit, behind a bracket or, if `leading`, at the start. -/
def LeadingZero (leading : Bool) (letters : List Char) : Prop :=
  (leading = true ∧ ∃ digit : Char, digit.isDigit = true ∧ ['0', digit] <+: letters) ∨
    ∃ digit : Char, digit.isDigit = true ∧ ['[', '0', digit] <:+: letters

theorem any_head?_isDigit_iff {letters : List Char} :
    letters.head?.any Char.isDigit = true ↔
      ∃ digit : Char, digit.isDigit = true ∧ [digit] <+: letters := by
  cases letters <;> simp

theorem leadingZero_cons_iff {leading : Bool} {letter : Char} {rest : List Char}
    (kept : ¬(leading = true ∧ letter = '0' ∧ rest.head?.any Char.isDigit = true)) :
    LeadingZero leading (letter :: rest) ↔ LeadingZero (letter = '[') rest := by
  have notHere : ¬(leading = true ∧
      ∃ digit : Char, digit.isDigit = true ∧ ['0', digit] <+: letter :: rest) := by
    rintro ⟨behind, digit, decimal, starts⟩
    obtain ⟨zero, next⟩ := List.cons_prefix_cons.mp starts
    exact kept ⟨behind, zero.symm, any_head?_isDigit_iff.mpr ⟨digit, decimal, next⟩⟩
  unfold LeadingZero
  rw [or_iff_right notHere]
  simp only [List.infix_cons_iff, List.cons_prefix_cons, and_or_left, exists_or, decide_eq_true_eq]
  by_cases opening : letter = '['
  · simp [opening]
  · simp [opening, Ne.symm opening]

theorem withoutZeros_eq_self_iff (leading : Bool) (letters : List Char) :
    withoutZeros leading letters = letters ↔ ¬LeadingZero leading letters := by
  induction letters generalizing leading with
  | nil => simp [withoutZeros, LeadingZero]
  | cons letter rest ih =>
    rw [withoutZeros]
    split
    next dropped =>
      obtain ⟨behind, zero, next⟩ := dropped
      obtain ⟨digit, decimal, starts⟩ := any_head?_isDigit_iff.mp next
      have redundant : LeadingZero leading (letter :: rest) :=
        Or.inl ⟨behind, digit, decimal, List.cons_prefix_cons.mpr ⟨zero.symm, starts⟩⟩
      refine iff_of_false (fun same => ?_) (not_not_intro redundant)
      have shorter := length_withoutZeros_le true rest
      rw [same, List.length_cons] at shorter
      omega
    next kept => rw [List.cons_inj_right, ih, leadingZero_cons_iff kept]

theorem text_of_parse {source : String} {path : Path} (read : parse source = .ok path) :
    text path = String.ofList (withoutZeros false source.toList) := by
  obtain ⟨segments, spelled, rfl⟩ := parse_eq_ok_iff.mp read
  rw [← spelled, withoutZeros_spelling, text]

theorem text_eq_source_iff {source : String} {path : Path} (read : parse source = .ok path) :
    text path = source ↔ ¬∃ digit : Char, digit.isDigit = true ∧ ['[', '0', digit] <:+: source.toList := by
  have plain : LeadingZero false source.toList ↔
      ∃ digit : Char, digit.isDigit = true ∧ ['[', '0', digit] <:+: source.toList := by
    simp [LeadingZero]
  rw [text_of_parse read, ← plain, ← withoutZeros_eq_self_iff, ← String.toList_inj,
    String.toList_ofList]

/-- A path comes back from its own text exactly if a check of its tokens accepts it, leniently or
strictly. The other way round a text that can be read is written again without the zeros in front of
its indexes; it then reads as before, and it is the same text exactly if no zero led another digit. -/
theorem parse_text_iff_validate :
    (∀ path, parse (text path) = .ok path ↔ validate false path = .ok ()) ∧
    (∀ path, parseStrict (text path) = .ok path ↔ validate true path = .ok ()) ∧
    ∀ source path, parse source = .ok path →
      text path = String.ofList (withoutZeros false source.toList) ∧
      parse (text path) = .ok path ∧
      (text path = source ↔
        ¬∃ digit : Char, digit.isDigit = true ∧ ['[', '0', digit] <:+: source.toList) := by
  refine ⟨fun path => ?_, fun path => ?_, fun source path read => ?_⟩
  · rw [parse_text_iff, validate_eq_ok_iff]
    simp
  · rw [parseStrict_eq_ok_iff, parse_text_iff, validate_eq_ok_iff]
    simp
  · exact ⟨text_of_parse read, parse_text (writable_of_parse read), text_eq_source_iff read⟩

theorem text_of_leading_zeros :
    let path := [Token.key "a", .index 7, .index 0, .key "00"]
    parse "a[007][00].00" = .ok path ∧ text path = "a[7][0].00" ∧
      parse "a[7][0].00" = .ok path ∧ validate true path = .ok () := by
  intro path
  have read : parse "a[007][00].00" = .ok path := by decide +kernel
  obtain ⟨written, again, -⟩ := parse_text_iff_validate.2.2 _ _ read
  have same : text path = "a[7][0].00" := by
    rw [written]
    decide +kernel
  refine ⟨read, same, same ▸ again, (parse_text_iff_validate.2.1 path).mp ?_⟩
  rw [same]
  decide +kernel

end DocPath.Path
