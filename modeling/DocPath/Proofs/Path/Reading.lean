import DocPath.Proofs.Path.Grammar

/-! Reading written paths. Scanning accepts exactly the texts of the grammar and reads the tokens that
their pieces stand for: what the grammar makes is read piece by piece, and at every point of a scan the
letters read so far are finished pieces and what the state holds of the next one. -/

namespace DocPath.Path

namespace Scan

theorem step_of_not_delimiter (scan : Scan) {letter : Char} (plain : isDelimiter letter = false) :
    scan.step letter = scan.stepLetter letter := by
  obtain ⟨dot, opening, closing⟩ := isDelimiter_eq_false_iff.mp plain
  simp only [step, dot, opening, closing, if_false]

theorem foldlM_held {hold : List Char → Scanning} {letters : List Char}
    (taken : ∀ (scan : Scan) (kept : List Char), scan.scanning = hold kept → ∀ letter ∈ letters,
      scan.step letter = .ok (scan.advance letter (hold (letter :: kept))))
    {scan : Scan} {kept : List Char} (inside : scan.scanning = hold kept) :
    ∃ next, letters.foldlM step scan = .ok next ∧ next.reversed = scan.reversed ∧
      next.scanning = hold (letters.reverse ++ kept) := by
  induction letters generalizing scan kept with
  | nil => exact ⟨scan, rfl, rfl, inside⟩
  | cons letter rest ih =>
    obtain ⟨next, read, same, state⟩ := ih
      (fun scan kept inside other later => taken scan kept inside other (List.mem_cons_of_mem letter later))
      (show (scan.advance letter (hold (letter :: kept))).scanning = hold (letter :: kept) from rfl)
    refine ⟨next, ?_, same, ?_⟩
    · rw [List.foldlM_cons, taken scan kept inside letter List.mem_cons_self]
      exact read
    · rw [state, List.reverse_cons, List.append_assoc]
      rfl

theorem foldlM_key {scan : Scan} {name : String} (writable : (Token.key name).Writable)
    (opening : scan.scanning = .start ∨ scan.scanning = .afterDot) :
    ∃ next, name.toList.foldlM step scan = .ok next ∧ next.reversed = scan.reversed ∧
      next.scanning = .inKey name.toList.reverse := by
  obtain ⟨nonempty, plain⟩ := writable
  cases letters : name.toList with
  | nil => exact absurd (String.toList_eq_nil_iff.mp letters) nonempty
  | cons letter rest =>
    rw [letters] at plain
    have first : scan.step letter = .ok (scan.advance letter (.inKey [letter])) := by
      rw [step_of_not_delimiter scan (plain letter List.mem_cons_self), stepLetter]
      rcases opening with state | state <;> rw [state]
    have taken : ∀ (scan : Scan) (kept : List Char), scan.scanning = .inKey kept →
        ∀ other ∈ rest, scan.step other = .ok (scan.advance other (.inKey (other :: kept))) := by
      intro scan kept inside other later
      rw [step_of_not_delimiter scan (plain other (List.mem_cons_of_mem letter later)), stepLetter,
        inside]
    have inside : (scan.advance letter (.inKey [letter])).scanning = .inKey [letter] := rfl
    obtain ⟨next, read, same, state⟩ := foldlM_held taken inside
    refine ⟨next, ?_, same, ?_⟩
    · rw [List.foldlM_cons, first]
      exact read
    · rw [state, List.reverse_cons]

theorem foldlM_decimal {scan : Scan} {letters : List Char}
    (decimal : ∀ letter ∈ letters, letter.isDigit = true) (opened : scan.scanning = .inIndex []) :
    ∃ next, letters.foldlM step scan = .ok next ∧ next.reversed = scan.reversed ∧
      next.scanning = .inIndex letters.reverse := by
  have taken : ∀ (scan : Scan) (kept : List Char), scan.scanning = .inIndex kept →
      ∀ digit ∈ letters, scan.step digit = .ok (scan.advance digit (.inIndex (digit :: kept))) := by
    intro scan kept inside digit member
    have digits := decimal digit member
    rw [step_of_not_delimiter scan (isDelimiter_of_isDigit digits), stepLetter, inside]
    exact if_pos digits
  obtain ⟨next, read, same, state⟩ := foldlM_held taken opened
  rw [List.append_nil] at state
  exact ⟨next, read, same, state⟩

theorem stepClose_of_digits {scan : Scan} {digits : List Char} (nonempty : digits ≠ [])
    (inside : scan.scanning = .inIndex digits.reverse) :
    scan.stepClose = match Index.ofNat? (Nat.ofDigitChars 10 digits 0) with
      | some position => .ok (scan.finish ']' (.index position) .afterIndex)
      | none => .error ⟨.indexOutOfRange, scan.offset - digits.length⟩ := by
  unfold stepClose
  rw [inside, ← @List.length_reverse _ digits]
  cases reversed : digits.reverse with
  | nil => exact absurd (List.reverse_eq_nil_iff.mp reversed) nonempty
  | cons digit rest =>
    have value : digits = (digit :: rest).reverse := by rw [← reversed, List.reverse_reverse]
    subst value
    rfl

theorem foldlM_digits {scan : Scan} (digits : Digits) (opened : scan.scanning = .inIndex []) :
    ∃ next, (digits.letters ++ [']']).foldlM step scan = .ok next ∧
      next.reversed = .index digits.index :: scan.reversed ∧ next.scanning = .afterIndex := by
  obtain ⟨inner, read, same, state⟩ := foldlM_decimal digits.decimal opened
  have value : Index.ofNat? (Nat.ofDigitChars 10 digits.letters 0) = some digits.index :=
    dif_pos digits.inRange
  have close : inner.step ']' = .ok (inner.finish ']' (.index digits.index) .afterIndex) := by
    show inner.stepClose = _
    rw [stepClose_of_digits digits.nonempty state, value]
  refine ⟨inner.finish ']' (.index digits.index) .afterIndex, ?_, ?_, rfl⟩
  · rw [List.foldlM_append, read]
    show [']'].foldlM step inner = _
    rw [List.foldlM_cons, close]
    rfl
  · show Token.index digits.index :: inner.reversed = _
    rw [same]

/-- The scan stands behind a token, and `path` is what it has read. -/
def Behind (scan : Scan) (path : Path) : Prop := scan.scanning ≠ .start ∧ scan.close = .ok path

theorem behind_iff {scan : Scan} {path : Path} :
    scan.Behind path ↔
      (∃ kept, scan.scanning = .inKey kept ∧ (keyOf kept :: scan.reversed).reverse = path) ∨
        scan.scanning = .afterIndex ∧ scan.reversed.reverse = path := by
  unfold Behind close fail
  cases scan.scanning <;> simp

theorem Behind.stepOpen {scan : Scan} {path : Path} (behind : scan.Behind path) :
    ∃ next, scan.step '[' = .ok next ∧ next.scanning = .inIndex [] ∧ next.reversed.reverse = path := by
  show ∃ next, scan.stepOpen = .ok next ∧ _
  unfold Scan.stepOpen
  rcases behind_iff.mp behind with ⟨kept, state, read⟩ | ⟨state, read⟩
  · rw [state]
    exact ⟨_, rfl, rfl, read⟩
  · rw [state]
    exact ⟨_, rfl, rfl, read⟩

theorem Behind.continue {scan : Scan} {path : Path} (behind : scan.Behind path) (segment : Segment) :
    ∃ next, segment.continuation.foldlM step scan = .ok next ∧
      next.Behind (path ++ [segment.token]) := by
  cases segment with
  | key name writable =>
    have dot : ∃ middle, scan.step '.' = .ok middle ∧ middle.scanning = .afterDot ∧
        middle.reversed.reverse = path := by
      show ∃ middle, scan.stepDot = .ok middle ∧ _
      unfold stepDot
      rcases behind_iff.mp behind with ⟨kept, state, read⟩ | ⟨state, read⟩
      · rw [state]
        exact ⟨_, rfl, rfl, read⟩
      · rw [state]
        exact ⟨_, rfl, rfl, read⟩
    obtain ⟨middle, stepped, state, read⟩ := dot
    obtain ⟨next, keyRead, same, last⟩ := foldlM_key writable (Or.inr state)
    refine ⟨next, ?_, behind_iff.mpr (Or.inl ⟨_, last, ?_⟩)⟩
    · show (List.cons '.' name.toList).foldlM step scan = _
      rw [List.foldlM_cons, stepped]
      exact keyRead
    · rw [List.reverse_cons, same, read, keyOf, List.reverse_reverse, String.ofList_toList]
      rfl
  | index digits =>
    obtain ⟨middle, stepped, state, read⟩ := behind.stepOpen
    obtain ⟨next, digitsRead, same, last⟩ := foldlM_digits digits state
    refine ⟨next, ?_, behind_iff.mpr (Or.inr ⟨last, ?_⟩)⟩
    · show (List.cons '[' (digits.letters ++ [']'])).foldlM step scan = _
      rw [List.foldlM_cons, stepped]
      exact digitsRead
    · rw [same, List.reverse_cons, read]
      rfl

theorem foldlM_first (segment : Segment) :
    ∃ next, segment.letters.foldlM step begin = .ok next ∧ next.Behind [segment.token] := by
  cases segment with
  | key name writable =>
    have start : begin.scanning = .start := rfl
    obtain ⟨next, read, same, state⟩ := foldlM_key writable (Or.inl start)
    refine ⟨next, read, behind_iff.mpr (Or.inl ⟨_, state, ?_⟩)⟩
    rw [same, keyOf, List.reverse_reverse, String.ofList_toList]
    rfl
  | index digits =>
    have opened : (begin.advance '[' (.inIndex [])).scanning = .inIndex [] := rfl
    obtain ⟨next, read, same, state⟩ := foldlM_digits digits opened
    refine ⟨next, read, behind_iff.mpr (Or.inr ⟨state, ?_⟩)⟩
    rw [same]
    rfl

theorem Behind.continues {scan : Scan} {front : Path} (behind : scan.Behind front)
    (segments : List Segment) :
    ∃ next, (segments.flatMap Segment.continuation).foldlM step scan = .ok next ∧
      next.Behind (front ++ segments.map Segment.token) := by
  induction segments generalizing scan front with
  | nil =>
    rw [List.map_nil, List.append_nil]
    exact ⟨scan, rfl, behind⟩
  | cons segment rest ih =>
    obtain ⟨middle, read, after⟩ := behind.continue segment
    obtain ⟨next, others, last⟩ := ih after
    refine ⟨next, ?_, ?_⟩
    · rw [List.flatMap_cons, List.foldlM_append, read]
      exact others
    · rw [List.append_assoc] at last
      exact last

theorem run_spelling (segments : List Segment) :
    run (Segment.spelling segments) = .ok (segments.map Segment.token) := by
  cases segments with
  | nil => rfl
  | cons first rest =>
    obtain ⟨middle, read, behind⟩ := foldlM_first first
    obtain ⟨last, others, after⟩ := behind.continues rest
    unfold run
    rw [Segment.spelling_cons, List.foldlM_append, read]
    show (do (← List.foldlM step middle _).close) = _
    rw [others]
    exact after.2

/-- The letters read so far are finished pieces and what the state holds of the next one. -/
def Reads (scan : Scan) (letters : List Char) : Prop :=
  ∃ segments : List Segment, scan.reversed.reverse = segments.map Segment.token ∧
    match scan.scanning with
    | .start => segments = [] ∧ letters = []
    | .inKey kept => ∃ writable : (keyOf kept).Writable,
        letters = Segment.spelling (segments ++ [.key (String.ofList kept.reverse) writable])
    | .afterDot => segments ≠ [] ∧ letters = Segment.spelling segments ++ ['.']
    | .inIndex kept => (∀ digit ∈ kept, digit.isDigit = true) ∧
        letters = Segment.spelling segments ++ '[' :: kept.reverse
    | .afterIndex => segments ≠ [] ∧ letters = Segment.spelling segments

theorem reads_begin : begin.Reads [] := ⟨[], rfl, rfl, rfl⟩

variable {scan next : Scan} {letters : List Char}

theorem Reads.stepDot (reads : scan.Reads letters) (stepped : scan.stepDot = .ok next) :
    next.Reads (letters ++ ['.']) := by
  obtain ⟨segments, tokens, held⟩ := reads
  unfold Scan.stepDot at stepped
  split at stepped
  next state =>
    cases stepped
    rw [state] at held
    exact ⟨segments, tokens, held.1, by rw [held.2]⟩
  next kept state =>
    cases stepped
    rw [state] at held
    obtain ⟨writable, same⟩ := held
    refine ⟨_, ?_, List.append_ne_nil_of_right_ne_nil segments (List.cons_ne_nil _ []), by rw [same]⟩
    show (keyOf kept :: scan.reversed).reverse = _
    rw [List.reverse_cons, tokens, List.map_append]
    rfl
  all_goals cases stepped

theorem Reads.stepOpen (reads : scan.Reads letters) (stepped : scan.stepOpen = .ok next) :
    next.Reads (letters ++ ['[']) := by
  have none : ∀ digit ∈ ([] : List Char), digit.isDigit = true :=
    fun digit member => absurd member List.not_mem_nil
  obtain ⟨segments, tokens, held⟩ := reads
  unfold Scan.stepOpen at stepped
  split at stepped
  next state =>
    cases stepped
    rw [state] at held
    obtain ⟨empty, same⟩ := held
    exact ⟨segments, tokens, none, by rw [same, empty]; rfl⟩
  next state =>
    cases stepped
    rw [state] at held
    exact ⟨segments, tokens, none, by rw [held.2]; rfl⟩
  next kept state =>
    cases stepped
    rw [state] at held
    obtain ⟨writable, same⟩ := held
    refine ⟨_, ?_, none, by rw [same]; rfl⟩
    show (keyOf kept :: scan.reversed).reverse = _
    rw [List.reverse_cons, tokens, List.map_append]
    rfl
  all_goals cases stepped

def digitsOfKept (digit : Char) (kept : List Char)
    (decimal : ∀ other ∈ digit :: kept, other.isDigit = true)
    (inRange : Nat.ofDigitChars 10 (digit :: kept).reverse 0 < 0x10000000000000000) : Digits where
  letters := (digit :: kept).reverse
  nonempty := by simp
  decimal := fun other member => decimal other (List.mem_reverse.mp member)
  inRange := inRange

theorem Reads.stepClose (reads : scan.Reads letters) (stepped : scan.stepClose = .ok next) :
    next.Reads (letters ++ [']']) := by
  obtain ⟨segments, tokens, held⟩ := reads
  unfold Scan.stepClose at stepped
  split at stepped
  next state => cases stepped
  next digit kept state =>
    split at stepped
    next position value =>
      cases stepped
      rw [state] at held
      obtain ⟨decimal, same⟩ := held
      obtain ⟨inRange, named⟩ := Option.dite_none_right_eq_some.mp value
      refine ⟨segments ++ [.index (digitsOfKept digit kept decimal inRange)], ?_,
        List.append_ne_nil_of_right_ne_nil segments (List.cons_ne_nil _ []), ?_⟩
      · show (Token.index position :: scan.reversed).reverse = _
        rw [List.reverse_cons, tokens, List.map_append, ← Option.some.inj named]
        rfl
      · rw [same, Segment.spelling_concat_index, List.append_assoc]
        rfl
    next value => cases stepped
  next => cases stepped

theorem Reads.stepLetter {letter : Char} (reads : scan.Reads letters)
    (plain : isDelimiter letter = false) (stepped : scan.stepLetter letter = .ok next) :
    next.Reads (letters ++ [letter]) := by
  have single : (keyOf [letter]).Writable := writable_key (List.cons_ne_nil letter []) (by simpa using plain)
  obtain ⟨segments, tokens, held⟩ := reads
  unfold Scan.stepLetter at stepped
  split at stepped
  next state => cases stepped
  next kept state =>
    split at stepped
    next digit =>
      cases stepped
      rw [state] at held
      obtain ⟨decimal, same⟩ := held
      refine ⟨segments, tokens, ?_, by rw [same]; simp⟩
      intro other member
      rcases List.mem_cons.mp member with rfl | before
      · exact digit
      · exact decimal other before
    next digit => cases stepped
  next kept state =>
    cases stepped
    rw [state] at held
    obtain ⟨writable, same⟩ := held
    have longer : (keyOf (letter :: kept)).Writable := by
      apply writable_key (by simp)
      intro other member
      rcases List.mem_cons.mp (List.mem_reverse.mp member) with rfl | before
      · exact plain
      · apply writable.2
        rw [String.toList_ofList]
        exact List.mem_reverse.mpr before
    have grown : (String.ofList (letter :: kept).reverse).toList =
        (String.ofList kept.reverse).toList ++ [letter] := by simp
    refine ⟨segments, tokens, longer, ?_⟩
    rw [same, Segment.spelling_concat_key writable longer grown]
  next state =>
    cases stepped
    rw [state] at held
    obtain ⟨empty, same⟩ := held
    subst empty same
    exact ⟨[], tokens, single, by simp [Segment.spelling, Segment.letters]⟩
  next state =>
    cases stepped
    rw [state] at held
    obtain ⟨nonempty, same⟩ := held
    refine ⟨segments, tokens, single, ?_⟩
    rw [same, Segment.spelling_concat nonempty]
    simp [Segment.continuation]

theorem Reads.step {letter : Char} (reads : scan.Reads letters) (stepped : scan.step letter = .ok next) :
    next.Reads (letters ++ [letter]) := by
  by_cases delimiter : isDelimiter letter = true
  · unfold Scan.step at stepped
    split at stepped
    next dot => exact dot ▸ reads.stepDot stepped
    next notDot =>
      split at stepped
      next opening => exact opening ▸ reads.stepOpen stepped
      next notOpening =>
        split at stepped
        next closing => exact closing ▸ reads.stepClose stepped
        next notClosing =>
          rw [isDelimiter_eq_false_iff.mpr ⟨notDot, notOpening, notClosing⟩] at delimiter
          cases delimiter
  · have plain := Bool.not_eq_true _ ▸ delimiter
    rw [step_of_not_delimiter scan plain] at stepped
    exact reads.stepLetter plain stepped

theorem Reads.foldlM {more : List Char} (reads : scan.Reads letters)
    (read : more.foldlM Scan.step scan = .ok next) : next.Reads (letters ++ more) := by
  induction more generalizing scan letters with
  | nil =>
    cases read
    rw [List.append_nil]
    exact reads
  | cons letter rest ih =>
    rw [List.foldlM_cons] at read
    cases stepped : scan.step letter with
    | error failure =>
      rw [stepped] at read
      cases read
    | ok middle =>
      rw [stepped] at read
      rw [List.append_cons]
      exact ih (reads.step stepped) read

theorem Reads.close {path : Path} (reads : scan.Reads letters) (closed : scan.close = .ok path) :
    ∃ segments, Segment.spelling segments = letters ∧ segments.map Segment.token = path := by
  obtain ⟨segments, tokens, held⟩ := reads
  unfold Scan.close at closed
  split at closed
  next state =>
    cases closed
    rw [state] at held
    obtain ⟨empty, same⟩ := held
    subst empty same
    exact ⟨[], rfl, tokens.symm⟩
  next state =>
    cases closed
    rw [state] at held
    exact ⟨segments, held.2.symm, tokens.symm⟩
  next kept state =>
    cases closed
    rw [state] at held
    obtain ⟨writable, same⟩ := held
    refine ⟨_, same.symm, ?_⟩
    rw [List.reverse_cons, tokens, List.map_append]
    rfl
  all_goals cases closed

theorem exists_spelling_of_run {path : Path} (read : run letters = .ok path) :
    ∃ segments, Segment.spelling segments = letters ∧ segments.map Segment.token = path := by
  unfold run at read
  cases passed : letters.foldlM Scan.step Scan.begin with
  | error failure =>
    rw [passed] at read
    cases read
  | ok last =>
    rw [passed] at read
    exact (reads_begin.foldlM passed).close read

theorem run_eq_ok_iff {path : Path} :
    run letters = .ok path ↔
      ∃ segments, Segment.spelling segments = letters ∧ segments.map Segment.token = path := by
  constructor
  · exact exists_spelling_of_run
  · rintro ⟨segments, rfl, rfl⟩
    exact run_spelling segments

end Scan

theorem scan_eq_run (letters : List Char) : scan letters = Scan.run letters := by
  unfold scan
  split
  next empty =>
    rw [empty]
    rfl
  next nonempty =>
    split
    next => rfl
    next none =>
      have plain : ∀ letter ∈ letters, isDelimiter letter = false := by simpa using none
      have whole := Scan.run_spelling [.key (String.ofList letters) (writable_key nonempty plain)]
      simp only [Segment.spelling, Segment.letters, String.toList_ofList, List.flatMap_nil,
        List.append_nil] at whole
      exact whole.symm

theorem parse_eq_ok_iff {text : String} {path : Path} :
    parse text = .ok path ↔
      ∃ segments, Segment.spelling segments = text.toList ∧ segments.map Segment.token = path := by
  rw [← Scan.run_eq_ok_iff, ← scan_eq_run]
  unfold parse
  cases scan text.toList <;> simp

theorem strictFault?_eq_none_iff (source : Option String) {path : Path} :
    strictFault? source path = none ↔ ∃ name rest, path = .key name :: rest := by
  cases path with
  | nil => simp [strictFault?]
  | cons token rest => cases token <;> simp [strictFault?]

theorem parseStrict_eq_ok_iff {text : String} {path : Path} :
    parseStrict text = .ok path ↔
      parse text = .ok path ∧ ∃ name rest, path = .key name :: rest := by
  unfold parseStrict parseWith
  cases parse text with
  | error failure => simp [bind, Except.bind]
  | ok found =>
    simp only [bind, Except.bind, if_true, ← strictFault?_eq_none_iff (some text), Except.ok.injEq]
    cases faulty : strictFault? (some text) found with
    | some fault =>
      simp only [reduceCtorEq, false_iff, not_and]
      rintro rfl
      simp [faulty]
    | none =>
      simp only [pure, Except.pure, Except.ok.injEq]
      exact ⟨fun same => ⟨same, same ▸ faulty⟩, And.left⟩

/-- A text is read exactly if the grammar makes it, and then as the tokens of its pieces, which are
given by the text; a text without delimiters is a single key. Strict reading accepts of these the
paths that start with a key, and it reports what lenient reading reports. -/
theorem parse_iff_spelled (text : String) :
    (∀ path, parse text = .ok path ↔
      ∃ segments, Segment.spelling segments = text.toList ∧ segments.map Segment.token = path) ∧
    (∀ segments others, Segment.spelling segments = text.toList →
      Segment.spelling others = text.toList → segments = others) ∧
    ((∀ letter ∈ text.toList, isDelimiter letter = false) → text ≠ "" →
      parse text = .ok [.key text]) ∧
    (∀ path, parseStrict text = .ok path ↔
      parse text = .ok path ∧ ∃ name rest, path = .key name :: rest) ∧
    ∀ error, parse text = .error error → parseStrict text = .error error := by
  refine ⟨fun path => parse_eq_ok_iff, ?_, ?_, fun path => parseStrict_eq_ok_iff, ?_⟩
  · intro segments others spelled otherSpelled
    exact Segment.spelling_injective (spelled.trans otherSpelled.symm)
  · intro plain nonempty
    exact parse_eq_ok_iff.mpr ⟨[.key text ⟨nonempty, plain⟩], List.append_nil _, rfl⟩
  · intro error failed
    unfold parseStrict parseWith
    rw [failed]
    rfl

theorem parse_spelled_with_zeros :
    let path := [Token.key "größe", .index 7, .index 0, .key "b"]
    parse "größe[007][0].b" = .ok path ∧ parseStrict "größe[007][0].b" = .ok path ∧
      parse "größe" = .ok [.key "größe"] ∧
      parseStrict "a[0" = .error (.badPath "a[0" ⟨.unterminatedIndex, 3⟩) := by
  intro path
  have spelled := parse_iff_spelled "größe[007][0].b"
  have plain : (Token.key "größe").Writable := by decide
  have read : parse "größe[007][0].b" = .ok path :=
    (spelled.1 path).mpr ⟨[.key "größe" plain, .index ⟨['0', '0', '7'], by simp, by simp, by decide⟩,
      .index ⟨['0'], by simp, by simp, by decide⟩, .key "b" (by decide)], rfl, rfl⟩
  refine ⟨read, (spelled.2.2.2.1 path).mpr ⟨read, "größe", _, rfl⟩, ?_, ?_⟩
  · exact (parse_iff_spelled "größe").2.2.1 plain.2 plain.1
  · exact (parse_iff_spelled "a[0").2.2.2.2 _ (by decide +kernel)

end DocPath.Path
