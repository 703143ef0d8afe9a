import Mathlib.Data.Set.List
import DocPath.Path.Segment
import DocPath.Proofs.Path.RoundTrip

/-! Paths as JSON values. A JSON value stands for a token exactly if it is the JSON form of one, so a
list of values stands for one path or for none; the name that is put together from it is the text of
that path, which must not start with an index. -/

namespace DocPath

namespace Token

theorem ofJson_eq_ok_iff {json : Json} {token : Token} :
    ofJson json = .ok token ↔ token.toJson = json := by
  constructor
  · intro read
    cases json with
    | null | bool | array | object => cases read
    | string name =>
      cases read
      rfl
    | number number =>
      cases number with
      | float value => cases read
      | int value inRange =>
        simp only [ofJson, ofInt] at read
        split at read
        · cases read
        · rename_i positive
          have named : Index.ofNat? value.toNat = some ⟨value.toNat, by omega⟩ := dif_pos (by omega)
          rw [named] at read
          cases read
          simp only [toJson, Number.ofNat, Json.number.injEq, Number.int.injEq]
          omega
  · intro written
    subst written
    cases token with
    | key name => rfl
    | index position =>
      have named : Index.ofNat? position.val = some position := Index.ofNat?_eq_some_iff.mpr rfl
      have positive : ¬(position.val : Int) < 0 := by omega
      simp only [toJson, Number.ofNat, ofJson, ofInt, if_neg positive, Int.toNat_natCast, named]

theorem exists_toJson_iff {json : Json} :
    (∃ token : Token, token.toJson = json) ↔
      (∃ name, json = .string name) ∨
        ∃ value inRange, json = .number (.int value inRange) ∧ 0 ≤ value := by
  constructor
  · rintro ⟨token, rfl⟩
    cases token with
    | key name => exact Or.inl ⟨name, rfl⟩
    | index position => exact Or.inr ⟨_, _, rfl, by omega⟩
  · rintro (⟨name, rfl⟩ | ⟨value, inRange, rfl, positive⟩)
    · exact ⟨.key name, rfl⟩
    · refine ⟨.index ⟨value.toNat, by omega⟩, ?_⟩
      simp only [toJson, Number.ofNat, Json.number.injEq, Number.int.injEq]
      omega

theorem category_of_ofJson {json : Json} {error : Error} (failed : ofJson json = .error error) :
    error.category = .argumentType := by
  cases json with
  | string name => cases failed
  | null | bool | array | object =>
    cases failed
    rfl
  | number number =>
    cases number with
    | float value =>
      cases failed
      rfl
    | int value inRange =>
      simp only [ofJson, ofInt] at failed
      split at failed
      · cases failed
        rfl
      · split at failed <;> cases failed
        rfl

end Token

namespace Path

theorem mapM_ofJson_cons (segment : Json) (rest : List Json) :
    (segment :: rest).mapM Token.ofJson = (Token.ofJson segment).bind fun token =>
      (rest.mapM Token.ofJson).bind fun others => .ok (token :: others) := List.mapM_cons

theorem mapM_ofJson_eq_ok_iff {segments : List Json} {path : Path} :
    segments.mapM Token.ofJson = .ok path ↔ path.map Token.toJson = segments := by
  induction segments generalizing path with
  | nil => simp [pure, Except.pure, eq_comm]
  | cons segment rest ih =>
    rw [mapM_ofJson_cons, List.map_eq_cons_iff]
    constructor
    · intro read
      cases here : Token.ofJson segment with
      | error fault => simp [here, Except.bind] at read
      | ok token =>
        cases later : rest.mapM Token.ofJson with
        | error fault => simp [here, later, Except.bind] at read
        | ok others =>
          have whole : token :: others = path := by simpa [here, later, Except.bind] using read
          exact ⟨token, others, whole.symm, Token.ofJson_eq_ok_iff.mp here, ih.mp later⟩
    · rintro ⟨token, others, rfl, here, later⟩
      rw [Token.ofJson_eq_ok_iff.mpr here, ih.mpr later]
      rfl

theorem category_of_mapM_ofJson {segments : List Json} {error : Error}
    (failed : segments.mapM Token.ofJson = .error error) : error.category = .argumentType := by
  induction segments with
  | nil => cases failed
  | cons segment rest ih =>
    rw [mapM_ofJson_cons] at failed
    cases here : Token.ofJson segment with
    | error fault =>
      have same : fault = error := by simpa [here, Except.bind] using failed
      exact same ▸ Token.category_of_ofJson here
    | ok token =>
      cases later : rest.mapM Token.ofJson with
      | error fault =>
        have same : fault = error := by simpa [here, later, Except.bind] using failed
        exact ih (same ▸ later)
      | ok others => simp [here, later, Except.bind] at failed

theorem textStrict_eq_ok_iff {path : Path} {name : String} :
    textStrict path = .ok name ↔ (∀ position rest, path ≠ .index position :: rest) ∧ text path = name := by
  cases path with
  | nil => simp [textStrict]
  | cons token rest => cases token <;> simp [textStrict]

theorem category_of_textStrict {path : Path} {error : Error} (failed : textStrict path = .error error) :
    error.category = .argumentType := by
  cases path with
  | nil => cases failed
  | cons token rest =>
    cases token <;> cases failed
    rfl

theorem nameOfJson_map_toJson (path : Path) : nameOfJson (path.map Token.toJson) = textStrict path := by
  have read : (path.map Token.toJson).mapM Token.ofJson = .ok path := mapM_ofJson_eq_ok_iff.mpr rfl
  show ((path.map Token.toJson).mapM Token.ofJson).bind textStrict = _
  rw [read]
  rfl

theorem nameOfJson_eq_ok_iff {segments : List Json} {name : String} :
    nameOfJson segments = .ok name ↔
      ∃ path, path.map Token.toJson = segments ∧ textStrict path = .ok name := by
  constructor
  · intro named
    cases read : segments.mapM Token.ofJson with
    | error fault =>
      unfold nameOfJson at named
      rw [read] at named
      cases named
    | ok path =>
      have same := mapM_ofJson_eq_ok_iff.mp read
      subst same
      exact ⟨path, rfl, (nameOfJson_map_toJson path).symm.trans named⟩
  · rintro ⟨path, rfl, written⟩
    exact (nameOfJson_map_toJson path).trans written

theorem category_of_nameOfJson {segments : List Json} {error : Error}
    (failed : nameOfJson segments = .error error) : error.category = .argumentType := by
  cases read : segments.mapM Token.ofJson with
  | error fault =>
    unfold nameOfJson at failed
    rw [read] at failed
    cases failed
    exact category_of_mapM_ofJson read
  | ok path =>
    have same := mapM_ofJson_eq_ok_iff.mp read
    subst same
    exact category_of_textStrict ((nameOfJson_map_toJson path).symm.trans failed)

theorem exists_nameOfJson_iff {segments : List Json} :
    (∃ name, nameOfJson segments = .ok name) ↔
      (∀ segment ∈ segments, ∃ token : Token, token.toJson = segment) ∧
        ∀ number rest, segments ≠ .number number :: rest := by
  constructor
  · rintro ⟨name, named⟩
    obtain ⟨path, rfl, written⟩ := nameOfJson_eq_ok_iff.mp named
    refine ⟨fun segment member => ?_, fun number rest same => ?_⟩
    · obtain ⟨token, -, same⟩ := List.mem_map.mp member
      exact ⟨token, same⟩
    · obtain ⟨token, others, split, leading, -⟩ := List.map_eq_cons_iff.mp same
      cases token with
      | key word => cases leading
      | index position => exact (textStrict_eq_ok_iff.mp written).1 position others split
  · rintro ⟨each, noNumber⟩
    obtain ⟨path, rfl⟩ : segments ∈ Set.range (List.map Token.toJson) := by
      rw [Set.range_list_map]
      exact each
    refine ⟨text path, nameOfJson_eq_ok_iff.mpr ⟨path, rfl, textStrict_eq_ok_iff.mpr ⟨?_, rfl⟩⟩⟩
    rintro position rest rfl
    exact noNumber _ _ rfl

theorem text_key_cons (first : String) (rest : Path) : text (.key first :: rest) = nameOf first rest :=
  rfl

theorem exists_key_cons {path : Path} (nonempty : path ≠ [])
    (noIndex : ∀ position rest, path ≠ .index position :: rest) :
    ∃ first rest, path = .key first :: rest := by
  cases path with
  | nil => exact absurd rfl nonempty
  | cons token rest =>
    cases token with
    | key first => exact ⟨first, rest, rfl⟩
    | index position => exact absurd rfl (noIndex position rest)

theorem writable_iff_strings {path : Path} :
    Writable path ↔ ∀ word, Json.string word ∈ path.map Token.toJson → (Token.key word).Writable := by
  constructor
  · intro writable word member
    obtain ⟨token, inside, same⟩ := List.mem_map.mp member
    cases token with
    | index position => cases same
    | key name =>
      cases same
      exact writable _ inside
  · intro each token inside
    cases token with
    | index position => trivial
    | key name => exact each name (List.mem_map_of_mem inside)

/-- A name can be put together from a list of JSON values exactly if each is a string or an integer that
is an index, and the first is no number; else an argument is wrong. The name is the text of the path that
the values stand for, the same as that of its leading key and the tokens behind it, and it reads back as
the path, strictly, exactly if there is a value and every string among them can be written as a key. The
other way round a path comes back from its JSON form, which names what the path is written as. -/
theorem segments_name_paths :
    (∀ segments : List Json,
      ((∃ name, nameOfJson segments = .ok name) ↔
        (∀ segment ∈ segments, (∃ word, segment = .string word) ∨
          ∃ value inRange, segment = .number (.int value inRange) ∧ 0 ≤ value) ∧
        ∀ number rest, segments ≠ .number number :: rest) ∧
      (∀ error, nameOfJson segments = .error error → error.category = .argumentType) ∧
      ∀ name, nameOfJson segments = .ok name →
        ∃ path, segments.mapM Token.ofJson = .ok path ∧ name = text path ∧
          (segments ≠ [] → ∃ first rest, path = .key first :: rest ∧ name = nameOf first rest) ∧
          (parseStrict name = .ok path ↔ segments ≠ [] ∧
            ∀ word, .string word ∈ segments → (Token.key word).Writable)) ∧
    ∀ path : Path, ∃ segments, path.toJson = .array segments ∧
      segments.mapM Token.ofJson = .ok path ∧ nameOfJson segments = textStrict path ∧
      ∀ error, textStrict path = .error error → error.category = .argumentType := by
  refine ⟨fun segments => ⟨?_, fun error => category_of_nameOfJson, fun name named => ?_⟩, fun path => ?_⟩
  · simp only [exists_nameOfJson_iff, Token.exists_toJson_iff]
  · obtain ⟨path, rfl, written⟩ := nameOfJson_eq_ok_iff.mp named
    obtain ⟨noIndex, rfl⟩ := textStrict_eq_ok_iff.mp written
    have leading : path.map Token.toJson ≠ [] → ∃ first rest, path = .key first :: rest :=
      fun nonempty => exists_key_cons (fun none => nonempty (none ▸ rfl)) noIndex
    refine ⟨path, mapM_ofJson_eq_ok_iff.mpr rfl, rfl, fun nonempty => ?_, ?_⟩
    · obtain ⟨first, rest, rfl⟩ := leading nonempty
      exact ⟨first, rest, rfl, text_key_cons first rest⟩
    · rw [parseStrict_eq_ok_iff, parse_text_iff, writable_iff_strings, and_comm]
      refine and_congr_left fun _ => ⟨?_, leading⟩
      rintro ⟨first, rest, rfl⟩
      exact List.cons_ne_nil _ _
  · exact ⟨path.map Token.toJson, rfl, mapM_ofJson_eq_ok_iff.mpr rfl, nameOfJson_map_toJson path,
      fun error => category_of_textStrict⟩

theorem segments_name_paths_mixed :
    let path := [Token.key "a", .index 18446744073709551615, .key "b"]
    let dotted := [Token.key "a", .index 0, .key "b.c"]
    nameOfJson (path.map Token.toJson) = .ok "a[18446744073709551615].b" ∧
      parseStrict "a[18446744073709551615].b" = .ok path ∧
      nameOfJson (dotted.map Token.toJson) = .ok "a[0].b.c" ∧ parseStrict "a[0].b.c" ≠ .ok dotted ∧
      nameOfJson (Token.toJson (.index 0) :: path.map Token.toJson) = .error (.nameStartsWithIndex 0) ∧
      (Error.nameStartsWithIndex 0).category = .argumentType := by
  intro path dotted
  have named : nameOfJson (path.map Token.toJson) = .ok "a[18446744073709551615].b" := by decide +kernel
  have dottedName : nameOfJson (dotted.map Token.toJson) = .ok "a[0].b.c" := by decide +kernel
  have failed : nameOfJson (Token.toJson (.index 0) :: path.map Token.toJson) =
      .error (.nameStartsWithIndex 0) := by decide +kernel
  obtain ⟨again, read, -, -, back⟩ := (segments_name_paths.1 _).2.2 _ named
  obtain ⟨other, otherRead, -, -, lost⟩ := (segments_name_paths.1 _).2.2 _ dottedName
  obtain rfl : path = again := Except.ok.inj ((mapM_ofJson_eq_ok_iff.mpr rfl).symm.trans read)
  obtain rfl : dotted = other := Except.ok.inj ((mapM_ofJson_eq_ok_iff.mpr rfl).symm.trans otherRead)
  have writable : Writable path := by decide
  refine ⟨named, back.mpr ⟨List.cons_ne_nil _ _, writable_iff_strings.mp writable⟩, dottedName,
    fun same => ?_, failed, (segments_name_paths.1 _).2.1 _ failed⟩
  exact absurd ((lost.mp same).2 "b.c" (by simp [dotted, Token.toJson])) (by decide)

end Path
end DocPath
