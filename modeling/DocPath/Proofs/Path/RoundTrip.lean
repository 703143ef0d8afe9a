import DocPath.Proofs.Path.Reading

/-! Written paths read back. A path whose keys have letters and hold no delimiter is read from its
own text, and every path that is read from a text is of that kind; these are the paths that a check
of their tokens accepts. So paths that can be read are told apart by their texts. -/

namespace DocPath

def Digits.ofIndex (position : Index) : Digits where
  letters := Nat.toDigits 10 position
  nonempty := Nat.toDigits_ne_nil
  decimal := fun _ => Nat.isDigit_of_mem_toDigits (by decide) (by decide)
  inRange := by
    rw [Nat.ofDigitChars_ten_toDigits]
    exact position.isLt

theorem Digits.index_ofIndex (position : Index) : (Digits.ofIndex position).index = position :=
  Fin.ext Nat.ofDigitChars_ten_toDigits

def Token.segment : (token : Token) → token.Writable → Segment
  | .key name, writable => .key name writable
  | .index position, _ => .index (.ofIndex position)

theorem Token.token_segment (token : Token) (writable : token.Writable) :
    (token.segment writable).token = token := by
  cases token with
  | key name => rfl
  | index position => exact congrArg Token.index (Digits.index_ofIndex position)

theorem Token.letters_segment (token : Token) (writable : token.Writable) :
    (token.segment writable).letters = token.letters ∧
      (token.segment writable).continuation = token.continuation := by
  cases token with
  | key name => exact ⟨rfl, rfl⟩
  | index position => exact ⟨rfl, rfl⟩

namespace Path

theorem exists_continuations {path : Path} (writable : Writable path) :
    ∃ segments : List Segment, segments.map Segment.token = path ∧
      segments.flatMap Segment.continuation = path.flatMap Token.continuation := by
  induction path with
  | nil => exact ⟨[], rfl, rfl⟩
  | cons token rest ih =>
    obtain ⟨segments, tokens, spelled⟩ :=
      ih fun other later => writable other (List.mem_cons_of_mem token later)
    have here := writable token List.mem_cons_self
    refine ⟨token.segment here :: segments, ?_, ?_⟩
    · rw [List.map_cons, tokens, token.token_segment]
    · rw [List.flatMap_cons, List.flatMap_cons, spelled, (token.letters_segment here).2]

theorem exists_spelling {path : Path} (writable : Writable path) :
    ∃ segments : List Segment, segments.map Segment.token = path ∧ Segment.spelling segments = letters path := by
  cases path with
  | nil => exact ⟨[], rfl, rfl⟩
  | cons token rest =>
    obtain ⟨segments, tokens, spelled⟩ :=
      exists_continuations fun other later => writable other (List.mem_cons_of_mem token later)
    have here := writable token List.mem_cons_self
    refine ⟨token.segment here :: segments, ?_, ?_⟩
    · rw [List.map_cons, tokens, token.token_segment]
    · rw [Segment.spelling_cons, letters_cons, spelled, (token.letters_segment here).1]

theorem parse_text {path : Path} (writable : Writable path) : parse (text path) = .ok path := by
  obtain ⟨segments, tokens, spelled⟩ := exists_spelling writable
  refine parse_eq_ok_iff.mpr ⟨segments, ?_, tokens⟩
  rw [spelled, text, String.toList_ofList]

theorem writable_of_parse {source : String} {path : Path} (read : parse source = .ok path) :
    Writable path := by
  obtain ⟨segments, -, rfl⟩ := parse_eq_ok_iff.mp read
  intro token member
  obtain ⟨segment, -, rfl⟩ := List.mem_map.mp member
  exact segment.writable_token

theorem text_injective {path other : Path} (writable : Writable path) (otherWritable : Writable other)
    (same : text path = text other) : path = other := by
  have read := parse_text writable
  rw [same, parse_text otherWritable] at read
  exact (Except.ok.inj read).symm

theorem parse_text_iff {path : Path} : parse (text path) = .ok path ↔ Writable path :=
  ⟨writable_of_parse, parse_text⟩

theorem fault?_eq_none_iff {token : Token} : token.fault? = none ↔ token.Writable := by
  cases token with
  | index position => simp [Token.fault?, Token.Writable]
  | key name => simp [Token.fault?, Token.Writable, ite_eq_iff]

theorem findSome?_fault?_eq_none_iff {path : Path} :
    path.findSome? Token.fault? = none ↔ Writable path := by
  simp [List.findSome?_eq_none_iff, fault?_eq_none_iff, Writable]

theorem validate_eq_ok_iff {strict : Bool} {path : Path} :
    validate strict path = .ok () ↔
      Writable path ∧ (strict = true → ∃ name rest, path = .key name :: rest) := by
  unfold validate
  rw [← findSome?_fault?_eq_none_iff, ← strictFault?_eq_none_iff none]
  cases path.findSome? Token.fault? with
  | some fault => simp
  | none =>
    cases strict with
    | false => simp
    | true => cases strictFault? none path <;> simp

end Path
end DocPath
