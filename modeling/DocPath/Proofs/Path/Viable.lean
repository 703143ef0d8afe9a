import DocPath.Proofs.Path.Reading

/-! Where reading a path stops. A text is given up at the first letter that no path can go on with, at its
end if it is a path only up to there, or at the first index that is out of range, which the grammar alone
would let pass. What has been read by then can always be completed to a path. -/

namespace DocPath.Path

/-- What may follow a piece of a path, whatever the values of the indexes. -/
inductive Continues : List Char → Prop where
  | done : Continues []
  | key {name : String} {rest : List Char} (writable : (Token.key name).Writable)
      (more : Continues rest) : Continues ('.' :: (name.toList ++ rest))
  | index {digits rest : List Char} (nonempty : digits ≠ [])
      (decimal : ∀ digit ∈ digits, digit.isDigit = true) (more : Continues rest) :
      Continues ('[' :: (digits ++ ']' :: rest))

/-- The texts of paths, whatever the values of the indexes: nothing, or a start and what may follow it. -/
inductive Shaped : List Char → Prop where
  | root : Shaped []
  | key {name : String} {rest : List Char} (writable : (Token.key name).Writable)
      (more : Continues rest) : Shaped (name.toList ++ rest)
  | index {digits rest : List Char} (nonempty : digits ≠ [])
      (decimal : ∀ digit ∈ digits, digit.isDigit = true) (more : Continues rest) :
      Shaped ('[' :: (digits ++ ']' :: rest))

/-- The letters begin a text of that shape. -/
def Viable (letters : List Char) : Prop := ∃ more, Shaped (letters ++ more)

theorem Shaped.viable {letters : List Char} (shaped : Shaped letters) : Viable letters :=
  ⟨[], by rw [List.append_nil]; exact shaped⟩

theorem Continues.append {front back : List Char} (first : Continues front)
    (second : Continues back) : Continues (front ++ back) := by
  induction first with
  | done => exact second
  | key writable _ ih =>
    rw [List.cons_append, List.append_assoc]
    exact .key writable ih
  | index nonempty decimal _ ih =>
    rw [List.cons_append, List.append_assoc]
    exact .index nonempty decimal ih

theorem Shaped.append {front back : List Char} (shaped : Shaped front) (nonempty : front ≠ [])
    (more : Continues back) : Shaped (front ++ back) := by
  cases shaped with
  | root => exact absurd rfl nonempty
  | key writable first =>
    rw [List.append_assoc]
    exact .key writable (first.append more)
  | index digits decimal first =>
    rw [List.cons_append, List.append_assoc]
    exact .index digits decimal (first.append more)

theorem Shaped.append_index {front digits : List Char} (shaped : Shaped front) (nonempty : digits ≠ [])
    (decimal : ∀ digit ∈ digits, digit.isDigit = true) :
    Shaped (front ++ '[' :: (digits ++ [']'])) := by
  by_cases start : front = []
  · rw [start]
    exact .index nonempty decimal .done
  · exact shaped.append start (.index nonempty decimal .done)

theorem continues_continuation (segment : Segment) : Continues segment.continuation := by
  cases segment with
  | key name writable =>
    have piece := Continues.key writable .done
    rwa [List.append_nil] at piece
  | index digits => exact .index digits.nonempty digits.decimal .done

theorem continues_flatMap (segments : List Segment) :
    Continues (segments.flatMap Segment.continuation) := by
  induction segments with
  | nil => exact .done
  | cons segment rest ih => exact (continues_continuation segment).append ih

theorem shaped_spelling (segments : List Segment) : Shaped (Segment.spelling segments) := by
  cases segments with
  | nil => exact .root
  | cons first rest =>
    have more := continues_flatMap rest
    cases first with
    | key name writable => exact .key writable more
    | index digits =>
      have whole := Shaped.index digits.nonempty digits.decimal more
      simpa [Segment.spelling, Segment.letters] using whole

namespace Scan

/-- The letters lead the scan behind a token, unless they hold an index that is out of range. -/
def Passes (scan : Scan) (letters : List Char) : Prop :=
  match letters.foldlM step scan with
  | .ok next => ∃ path, next.Behind path
  | .error failure => failure.fault = .indexOutOfRange

theorem passes_of_ok {scan next : Scan} {front : List Char}
    (read : front.foldlM step scan = .ok next) {back : List Char} (passes : next.Passes back) :
    scan.Passes (front ++ back) := by
  unfold Passes
  rw [List.foldlM_append, read]
  exact passes

theorem passes_of_error {scan : Scan} {front : List Char} {failure : Failure}
    (failed : front.foldlM step scan = .error failure) (range : failure.fault = .indexOutOfRange)
    (back : List Char) : scan.Passes (front ++ back) := by
  unfold Passes
  rw [List.foldlM_append, failed]
  exact range

theorem stepClose_of_beyond {scan : Scan} {digits : List Char} (nonempty : digits ≠ [])
    (state : scan.scanning = .inIndex digits.reverse)
    (beyond : ¬Nat.ofDigitChars 10 digits 0 < 0x10000000000000000) :
    scan.stepClose = .error ⟨.indexOutOfRange, scan.offset - digits.length⟩ := by
  rw [stepClose_of_digits nonempty state, Index.ofNat?, dif_neg beyond]

theorem passes_digits {scan : Scan} (opened : scan.scanning = .inIndex []) {digits rest : List Char}
    (nonempty : digits ≠ []) (decimal : ∀ digit ∈ digits, digit.isDigit = true)
    (more : ∀ (next : Scan) (path : Path), next.Behind path → next.Passes rest) :
    scan.Passes (digits ++ ']' :: rest) := by
  rw [List.append_cons]
  by_cases inRange : Nat.ofDigitChars 10 digits 0 < 0x10000000000000000
  · obtain ⟨next, read, -, state⟩ := foldlM_digits ⟨digits, nonempty, decimal, inRange⟩ opened
    exact passes_of_ok read (more next _ (behind_iff.mpr (Or.inr ⟨state, rfl⟩)))
  · obtain ⟨inner, read, -, state⟩ := foldlM_decimal decimal opened
    have close : inner.step ']' = .error ⟨.indexOutOfRange, inner.offset - digits.length⟩ :=
      stepClose_of_beyond nonempty state inRange
    have stopped : (digits ++ [']']).foldlM step scan =
        .error ⟨.indexOutOfRange, inner.offset - digits.length⟩ := by
      rw [List.foldlM_append, read]
      show [']'].foldlM step inner = _
      rw [List.foldlM_cons, close]
      rfl
    exact passes_of_error stopped rfl rest

theorem Behind.passes {scan : Scan} {path : Path} (behind : scan.Behind path) {letters : List Char}
    (continues : Continues letters) : scan.Passes letters := by
  induction continues generalizing scan path with
  | done => exact ⟨path, behind⟩
  | key writable more ih =>
    obtain ⟨next, read, after⟩ := behind.continue (.key _ writable)
    exact passes_of_ok read (ih after)
  | index nonempty decimal more ih =>
    obtain ⟨next, stepped, opened, -⟩ := behind.stepOpen
    have inner : next.Passes _ := passes_digits opened nonempty decimal fun _ _ => ih
    have opening : ['['].foldlM step scan = .ok next := by
      rw [List.foldlM_cons, stepped]
      rfl
    exact passes_of_ok opening inner

theorem fault_of_shaped {letters : List Char} (shaped : Shaped letters) {failure : Failure}
    (failed : run letters = .error failure) : failure.fault = .indexOutOfRange := by
  have passes : letters = [] ∨ begin.Passes letters := by
    cases shaped with
    | root => exact Or.inl rfl
    | key writable more =>
      obtain ⟨next, read, behind⟩ := foldlM_first (.key _ writable)
      exact Or.inr (passes_of_ok read (behind.passes more))
    | index nonempty decimal more =>
      have inner : (begin.advance '[' (.inIndex [])).Passes _ :=
        passes_digits rfl nonempty decimal fun _ _ after => after.passes more
      exact Or.inr inner
  rcases passes with rfl | passes
  · cases failed
  · unfold run at failed
    unfold Passes at passes
    split at passes
    next next read =>
      obtain ⟨path, behind⟩ := passes
      rw [read] at failed
      exact absurd (behind.2.symm.trans failed) (by simp)
    next other stopped =>
      rw [stopped] at failed
      cases failed
      exact passes

theorem Reads.viable {scan : Scan} {letters : List Char} (reads : scan.Reads letters) :
    Viable letters := by
  obtain ⟨segments, -, held⟩ := reads
  have shaped := shaped_spelling segments
  split at held
  next => exact held.2 ▸ Shaped.root.viable
  next kept _ =>
    obtain ⟨writable, same⟩ := held
    exact same ▸ (shaped_spelling _).viable
  next =>
    obtain ⟨nonempty, same⟩ := held
    refine ⟨['a'], ?_⟩
    have longer := shaped_spelling (segments ++ [.key "a" (by decide)])
    rw [Segment.spelling_concat nonempty] at longer
    rw [same, List.append_assoc]
    exact longer
  next kept _ =>
    obtain ⟨decimal, same⟩ := held
    refine ⟨['0', ']'], ?_⟩
    have closed : Shaped (Segment.spelling segments ++ '[' :: ((kept.reverse ++ ['0']) ++ [']'])) := by
      refine shaped.append_index (by simp) ?_
      intro digit member
      rcases List.mem_append.mp member with before | last
      · exact decimal digit (List.mem_reverse.mp before)
      · rw [List.mem_singleton.mp last]
        rfl
    rw [same]
    simpa using closed
  next => exact held.2 ▸ shaped.viable

def Regular (scan : Scan) (letter : Char) : Except Failure Scan → Prop
  | .ok next => next.offset = scan.offset + letter.utf8Size
  | .error failure => failure.offset = scan.offset ∧ failure.fault ≠ .indexOutOfRange

theorem regular_stepDot (scan : Scan) : scan.Regular '.' scan.stepDot := by
  unfold stepDot
  cases scan.scanning <;> simp [Regular, advance, finish, fail]

theorem regular_stepOpen (scan : Scan) : scan.Regular '[' scan.stepOpen := by
  unfold stepOpen
  cases scan.scanning <;> simp [Regular, advance, finish, fail]

theorem regular_stepLetter (scan : Scan) (letter : Char) :
    scan.Regular letter (scan.stepLetter letter) := by
  unfold stepLetter
  cases scan.scanning with
  | start | afterDot | inKey | afterIndex => simp [Regular, advance, fail]
  | inIndex digits => by_cases decimal : letter.isDigit = true <;> simp [Regular, advance, fail, decimal]

theorem stepClose_cases (scan : Scan) :
    scan.Regular ']' scan.stepClose ∨
      ∃ digits, digits ≠ [] ∧ scan.scanning = .inIndex digits.reverse ∧
        0x10000000000000000 ≤ Nat.ofDigitChars 10 digits 0 ∧
        scan.stepClose = .error ⟨.indexOutOfRange, scan.offset - digits.length⟩ := by
  cases state : scan.scanning with
  | start | afterDot | inKey | afterIndex => simp [Regular, stepClose, state, fail]
  | inIndex reversed =>
    by_cases empty : reversed = []
    · subst empty
      simp [Regular, stepClose, state, fail]
    · have nonempty : reversed.reverse ≠ [] := fun none => empty (List.reverse_eq_nil_iff.mp none)
      have held : scan.scanning = .inIndex reversed.reverse.reverse := by
        rw [state, List.reverse_reverse]
      by_cases inRange : Nat.ofDigitChars 10 reversed.reverse 0 < 0x10000000000000000
      · have closed := stepClose_of_digits nonempty held
        rw [Index.ofNat?, dif_pos inRange] at closed
        exact Or.inl (by rw [closed]; rfl)
      · exact Or.inr ⟨reversed.reverse, nonempty, by rw [List.reverse_reverse],
          Nat.le_of_not_lt inRange, stepClose_of_beyond nonempty held inRange⟩

theorem step_cases (scan : Scan) (letter : Char) :
    scan.Regular letter (scan.step letter) ∨
      letter = ']' ∧ ∃ digits, digits ≠ [] ∧ scan.scanning = .inIndex digits.reverse ∧
        0x10000000000000000 ≤ Nat.ofDigitChars 10 digits 0 ∧
        scan.step letter = .error ⟨.indexOutOfRange, scan.offset - digits.length⟩ := by
  by_cases delimiter : isDelimiter letter = true
  · simp only [isDelimiter, Bool.or_eq_true, decide_eq_true_eq] at delimiter
    rcases delimiter with (rfl | rfl) | rfl
    · exact Or.inl (regular_stepDot scan)
    · exact Or.inl (regular_stepOpen scan)
    · exact (stepClose_cases scan).imp_right fun beyond => ⟨rfl, beyond⟩
  · rw [step_of_not_delimiter scan (Bool.not_eq_true _ ▸ delimiter)]
    exact Or.inl (regular_stepLetter scan letter)

theorem offset_of_step {scan next : Scan} {letter : Char} (stepped : scan.step letter = .ok next) :
    next.offset = scan.offset + letter.utf8Size := by
  rcases step_cases scan letter with regular | ⟨-, digits, -, -, -, failed⟩
  · rw [stepped] at regular
    exact regular
  · rw [stepped] at failed
    cases failed

theorem offset_foldlM {scan next : Scan} {letters : List Char}
    (read : letters.foldlM step scan = .ok next) :
    next.offset = scan.offset + (String.ofList letters).utf8ByteSize := by
  induction letters generalizing scan with
  | nil =>
    cases read
    rfl
  | cons letter rest ih =>
    rw [List.foldlM_cons] at read
    cases stepped : scan.step letter with
    | error failure =>
      rw [stepped] at read
      cases read
    | ok middle =>
      rw [stepped] at read
      rw [ih read, offset_of_step stepped, String.ofList_cons, String.utf8ByteSize_append,
        String.utf8ByteSize_singleton, Nat.add_assoc]

theorem exists_step_of_foldlM_error {scan : Scan} {letters : List Char} {failure : Failure}
    (failed : letters.foldlM step scan = .error failure) :
    ∃ front letter back middle, letters = front ++ letter :: back ∧
      front.foldlM step scan = .ok middle ∧ middle.step letter = .error failure := by
  induction letters generalizing scan with
  | nil => cases failed
  | cons letter rest ih =>
    rw [List.foldlM_cons] at failed
    cases stepped : scan.step letter with
    | error other =>
      rw [stepped] at failed
      cases failed
      exact ⟨[], letter, rest, scan, rfl, rfl, stepped⟩
    | ok next =>
      rw [stepped] at failed
      obtain ⟨front, first, back, middle, split, read, last⟩ := ih failed
      refine ⟨letter :: front, first, back, middle, by rw [split]; rfl, ?_, last⟩
      rw [List.foldlM_cons, stepped]
      exact read

theorem inIndex_of_step {scan next : Scan} (stepped : scan.step '[' = .ok next) :
    next.scanning = .inIndex [] := by
  have stepped : scan.stepOpen = .ok next := stepped
  unfold stepOpen at stepped
  split at stepped <;> cases stepped <;> rfl

theorem exists_of_foldlM_append {scan next : Scan} {front back : List Char}
    (read : (front ++ back).foldlM step scan = .ok next) :
    ∃ middle, front.foldlM step scan = .ok middle ∧ back.foldlM step middle = .ok next := by
  rw [List.foldlM_append] at read
  cases first : front.foldlM step scan with
  | error failure =>
    rw [first] at read
    cases read
  | ok middle =>
    rw [first] at read
    exact ⟨middle, rfl, read⟩

theorem inRange_of_foldlM {scan next : Scan} {digits rest : List Char}
    (decimal : ∀ digit ∈ digits, digit.isDigit = true)
    (read : ('[' :: (digits ++ ']' :: rest)).foldlM step scan = .ok next) :
    Nat.ofDigitChars 10 digits 0 < 0x10000000000000000 := by
  have read : (['['] ++ (digits ++ ']' :: rest)).foldlM step scan = .ok next := read
  obtain ⟨middle, stepped, read⟩ := exists_of_foldlM_append read
  have stepped : (scan.step '[' >>= pure) = .ok middle := stepped
  rw [bind_pure] at stepped
  obtain ⟨inner, taken, -, state⟩ := foldlM_decimal decimal (inIndex_of_step stepped)
  by_contra beyond
  have nonempty : digits ≠ [] := by
    rintro rfl
    exact beyond (by decide)
  have failed : inner.step ']' = .error ⟨.indexOutOfRange, inner.offset - digits.length⟩ :=
    stepClose_of_beyond nonempty state beyond
  obtain ⟨other, again, closed⟩ := exists_of_foldlM_append read
  cases taken.symm.trans again
  rw [List.foldlM_cons, failed] at closed
  cases closed

end Scan

/-- What is wrong with a text of which `front` has been read and `back` is left. -/
inductive Wrong (front back : List Char) : Prop where
  /-- No path goes on with the next letter. -/
  | letter {next : Char} {rest : List Char} (left : back = next :: rest)
      (refused : ¬Viable (front ++ [next]))
  /-- The text ends where no path does. -/
  | ending (left : back = []) (unfinished : ¬Shaped front)
  /-- The digits between the next brackets are the first whose value is out of range, and nothing else is
  wrong up to there. -/
  | range {before digits rest : List Char} (opened : front = before ++ ['['])
      (left : back = digits ++ ']' :: rest) (nonempty : digits ≠ [])
      (decimal : ∀ digit ∈ digits, digit.isDigit = true)
      (beyond : 0x10000000000000000 ≤ Nat.ofDigitChars 10 digits 0)
      (viable : Viable (front ++ (digits ++ [']'])))
      (first : ∀ earlier run later, front = earlier ++ '[' :: (run ++ ']' :: later) →
        (∀ digit ∈ run, digit.isDigit = true) → Nat.ofDigitChars 10 run 0 < 0x10000000000000000)

theorem utf8ByteSize_digits {digits : List Char} (decimal : ∀ digit ∈ digits, digit.isDigit = true) :
    (String.ofList digits).utf8ByteSize = digits.length := by
  induction digits with
  | nil => rfl
  | cons digit rest ih =>
    have single : digit.utf8Size = 1 := by
      rw [Char.utf8Size_eq_one_iff]
      have bounds := decimal digit List.mem_cons_self
      simp only [Char.isDigit, Bool.and_eq_true, decide_eq_true_eq, UInt32.le_iff_toNat_le] at bounds ⊢
      exact Nat.le_trans bounds.2 (by decide)
    rw [String.ofList_cons, String.utf8ByteSize_append, String.utf8ByteSize_singleton, single,
      ih fun other later => decimal other (List.mem_cons_of_mem digit later), List.length_cons,
      Nat.add_comm]

namespace Scan

theorem offset_begin {scan : Scan} {letters : List Char} (read : letters.foldlM step begin = .ok scan) :
    scan.offset = (String.ofList letters).utf8ByteSize := by
  rw [offset_foldlM read]
  exact Nat.zero_add _

theorem run_of_step_error {front : List Char} {middle : Scan}
    (read : front.foldlM step begin = .ok middle) {letter : Char} {failure : Failure}
    (failed : middle.step letter = .error failure) (back : List Char) :
    run (front ++ letter :: back) = .error failure := by
  unfold run
  rw [List.foldlM_append, read]
  show (do (← (List.cons letter back).foldlM step middle).close) = _
  rw [List.foldlM_cons, failed]
  rfl

theorem wrong_letter {front : List Char} {middle : Scan} (read : front.foldlM step begin = .ok middle)
    {letter : Char} {failure : Failure} (failed : middle.step letter = .error failure)
    (other : failure.fault ≠ .indexOutOfRange) (back : List Char) : Wrong front (letter :: back) := by
  refine .letter rfl ?_
  rintro ⟨more, shaped⟩
  rw [List.append_assoc] at shaped
  exact other (fault_of_shaped shaped (run_of_step_error read failed more))

theorem wrong_ending {letters : List Char} {last : Scan} (read : letters.foldlM step begin = .ok last)
    {failure : Failure} (failed : last.close = .error failure) :
    failure.offset = last.offset ∧ Wrong letters [] := by
  have here : failure.offset = last.offset ∧ failure.fault ≠ .indexOutOfRange := by
    unfold close fail at failed
    split at failed <;> cases failed <;> simp
  refine ⟨here.1, .ending rfl fun shaped => here.2 (fault_of_shaped shaped ?_)⟩
  unfold run
  rw [read]
  exact failed

theorem wrong_range {letters digits : List Char} {middle : Scan}
    (read : letters.foldlM step begin = .ok middle) (nonempty : digits ≠ [])
    (state : middle.scanning = .inIndex digits.reverse)
    (beyond : 0x10000000000000000 ≤ Nat.ofDigitChars 10 digits 0) (back : List Char) :
    ∃ front, letters = front ++ digits ∧
      middle.offset - digits.length = (String.ofList front).utf8ByteSize ∧ Viable front ∧
      Wrong front (digits ++ ']' :: back) := by
  obtain ⟨segments, -, held⟩ := reads_begin.foldlM read
  rw [state] at held
  obtain ⟨reversed, split⟩ := held
  rw [List.nil_append, List.reverse_reverse] at split
  have decimal : ∀ digit ∈ digits, digit.isDigit = true :=
    fun digit member => reversed digit (List.mem_reverse.mpr member)
  have shaped := shaped_spelling segments
  have whole := shaped.append_index nonempty decimal
  refine ⟨Segment.spelling segments ++ ['['], by simp [split], ?_, ?_, ?_⟩
  · rw [offset_begin read, split, List.append_cons, String.ofList_append, String.utf8ByteSize_append,
      utf8ByteSize_digits decimal, Nat.add_sub_cancel]
  · have zero : Shaped (Segment.spelling segments ++ '[' :: (['0'] ++ [']'])) :=
      shaped.append_index (by simp) (by simp)
    exact ⟨['0', ']'], by simpa using zero⟩
  · refine .range rfl rfl nonempty decimal beyond ?_ ?_
    · rw [List.append_assoc]
      exact whole.viable
    · intro earlier run later same each
      rw [split, List.append_cons, same, List.append_assoc] at read
      obtain ⟨before, -, behind⟩ := exists_of_foldlM_append read
      have behind : ('[' :: (run ++ ']' :: (later ++ digits))).foldlM step before = .ok middle := by
        simpa using behind
      exact inRange_of_foldlM each behind

/-- A scan fails behind letters that some path begins with, at what is wrong there. -/
theorem run_eq_error {letters : List Char} {failure : Failure} (failed : run letters = .error failure) :
    ∃ front back, letters = front ++ back ∧
      failure.offset = (String.ofList front).utf8ByteSize ∧ Viable front ∧ Wrong front back := by
  cases read : letters.foldlM step begin with
  | ok last =>
    have closed : last.close = .error failure := by
      unfold run at failed
      rw [read] at failed
      exact failed
    obtain ⟨offset, wrong⟩ := wrong_ending read closed
    exact ⟨letters, [], (List.append_nil letters).symm, offset.trans (offset_begin read),
      (reads_begin.foldlM read).viable, wrong⟩
  | error other =>
    obtain ⟨front, letter, back, middle, split, begun, stopped⟩ := exists_step_of_foldlM_error read
    rw [split, run_of_step_error begun stopped] at failed
    cases failed
    rcases step_cases middle letter with regular | ⟨rfl, digits, nonempty, state, beyond, range⟩
    · rw [stopped] at regular
      exact ⟨front, letter :: back, split, regular.1.trans (offset_begin begun),
        (reads_begin.foldlM begun).viable, wrong_letter begun stopped regular.2 back⟩
    · rw [stopped] at range
      cases range
      obtain ⟨shorter, whole, offset, viable, wrong⟩ := wrong_range begun nonempty state beyond back
      exact ⟨shorter, digits ++ ']' :: back, by rw [split, whole, List.append_assoc], offset, viable, wrong⟩

end Scan

/-- A text that cannot be read is reported with the text and an offset. The letters up to there begin some
path, and there the text goes wrong: at a letter that no path goes on with, at the end of a text that is
none, or at the first index whose value is out of range. -/
theorem reading_stops_where_wrong {text : String} {error : Error} (failed : parse text = .error error) :
    error.category = .malformedPath ∧ error.path = some text ∧
      ∃ front back : String, text = front ++ back ∧ error.offset = some front.utf8ByteSize ∧
        Viable front.toList ∧ Wrong front.toList back.toList := by
  unfold parse at failed
  split at failed
  next => cases failed
  next failure stopped =>
    cases failed
    rw [scan_eq_run] at stopped
    obtain ⟨front, back, split, offset, viable, wrong⟩ := Scan.run_eq_error stopped
    refine ⟨rfl, rfl, String.ofList front, String.ofList back, ?_, congrArg some offset, ?_, ?_⟩
    · rw [← String.ofList_append, ← split, String.ofList_toList]
    · rwa [String.toList_ofList]
    · rwa [String.toList_ofList, String.toList_ofList]

theorem reading_stops_where_wrong_inside :
    parse "größe..x" = .error (.badPath "größe..x" ⟨.unexpectedDot, 8⟩) ∧
      (∃ front back : String, "größe..x" = front ++ back ∧ some 8 = some front.utf8ByteSize ∧
        Viable front.toList ∧ Wrong front.toList back.toList) ∧
      parse "é[1" = .error (.badPath "é[1" ⟨.unterminatedIndex, 4⟩) ∧
      (∃ front back : String, "é[1" = front ++ back ∧ some 4 = some front.utf8ByteSize ∧
        Viable front.toList ∧ Wrong front.toList back.toList) ∧
      parse "é[7].b[18446744073709551616]." =
        .error (.badPath "é[7].b[18446744073709551616]." ⟨.indexOutOfRange, 8⟩) ∧
      ∃ front back : String, "é[7].b[18446744073709551616]." = front ++ back ∧
        some 8 = some front.utf8ByteSize ∧ Viable front.toList ∧ Wrong front.toList back.toList := by
  have dot : parse "größe..x" = .error (.badPath "größe..x" ⟨.unexpectedDot, 8⟩) := by decide +kernel
  have unclosed : parse "é[1" = .error (.badPath "é[1" ⟨.unterminatedIndex, 4⟩) := by decide +kernel
  have range : parse "é[7].b[18446744073709551616]." =
      .error (.badPath "é[7].b[18446744073709551616]." ⟨.indexOutOfRange, 8⟩) := by decide +kernel
  exact ⟨dot, (reading_stops_where_wrong dot).2.2, unclosed, (reading_stops_where_wrong unclosed).2.2, range,
    (reading_stops_where_wrong range).2.2⟩

end DocPath.Path
