import Mathlib.Data.List.Forall2

/-! Results that may be missing, and results that may be errors: options that are related value by value,
and steps of which the first has to succeed before the next is taken. -/

universe u v

namespace Option.Rel
variable {α β : Type u} {γ δ : Type v} {related other : α → β → Prop} {after : γ → δ → Prop}

theorem imp_of_mem {first : Option α} {second : Option β}
    (each : ∀ left ∈ first, ∀ right ∈ second, related left right → other left right)
    (start : Option.Rel related first second) : Option.Rel other first second := by
  cases start with
  | none => exact .none
  | some here => exact .some (each _ rfl _ rfl here)

theorem bind {first : Option α} {second : Option β} {next : α → Option γ} {more : β → Option δ}
    (start : Option.Rel related first second)
    (each : ∀ left right, related left right → Option.Rel after (next left) (more right)) :
    Option.Rel after (first.bind next) (second.bind more) := by
  cases start with
  | none => exact .none
  | some here => exact each _ _ here

theorem map {first : Option α} {second : Option β} {change : α → γ} {turn : β → δ}
    (start : Option.Rel related first second)
    (each : ∀ left right, related left right → after (change left) (turn right)) :
    Option.Rel after (first.map change) (second.map turn) := by
  cases start with
  | none => exact .none
  | some here => exact .some (each _ _ here)

theorem of_map {first : Option α} {second : Option β} {change : α → γ} {turn : β → δ}
    (mapped : Option.Rel after (first.map change) (second.map turn)) :
    Option.Rel (fun left right => after (change left) (turn right)) first second := by
  cases first <;> cases second <;> cases mapped
  · exact .none
  · exact .some ‹_›

theorem filter (keep : α → Bool) (hold : β → Bool) {first : Option α} {second : Option β}
    (start : Option.Rel related first second)
    (each : ∀ left right, related left right → keep left = hold right) :
    Option.Rel related (first.filter keep) (second.filter hold) := by
  cases start with
  | none => exact .none
  | some here =>
    rw [Option.filter_some, Option.filter_some, each _ _ here]
    split
    · exact .some here
    · exact .none

theorem getD {first : Option α} {second : Option β} {left : α} {right : β}
    (start : Option.Rel related first second) (fallback : related left right) :
    related (first.getD left) (second.getD right) := by
  cases start with
  | none => exact fallback
  | some here => exact here

theorem trans_of_mem {γ : Type u} {onward : β → γ → Prop} {through : α → γ → Prop}
    {first : Option α} {second : Option β} {third : Option γ}
    (each : ∀ left ∈ first, ∀ middle right, related left middle → onward middle right →
      through left right)
    (one : Option.Rel related first second) (two : Option.Rel onward second third) :
    Option.Rel through first third := by
  cases one with
  | none =>
    cases two with
    | none => exact .none
  | some here =>
    cases two with
    | some later => exact .some (each _ rfl _ _ here later)

theorem swap_of_mem {back : β → α → Prop} {first : Option α} {second : Option β}
    (each : ∀ left ∈ first, ∀ right, related left right → back right left)
    (start : Option.Rel related first second) : Option.Rel back second first := by
  cases start with
  | none => exact .none
  | some here => exact .some (each _ rfl _ here)

theorem exists_right {left : α} {second : Option β} (start : Option.Rel related (.some left) second) :
    ∃ right, second = .some right ∧ related left right := by
  cases start with
  | some here => exact ⟨_, rfl, here⟩

theorem exists_left {right : β} {first : Option α} (start : Option.Rel related first (.some right)) :
    ∃ left, first = .some left ∧ related left right := by
  cases start with
  | some here => exact ⟨_, rfl, here⟩

theorem of_forth_back {first : Option α} {second : Option β}
    (forth : ∀ left, first = .some left → ∃ right, second = .some right ∧ related left right)
    (back : ∀ right, second = .some right → ∃ left, first = .some left) :
    Option.Rel related first second := by
  cases first with
  | some left =>
    obtain ⟨right, rfl, here⟩ := forth left rfl
    exact .some here
  | none =>
    cases second with
    | none => exact .none
    | some right =>
      obtain ⟨left, impossible⟩ := back right rfl
      cases impossible

end Option.Rel

theorem List.forall₂_iff_rel_getElem? {α β : Type u} {related : α → β → Prop} {items : List α}
    {others : List β} :
    List.Forall₂ related items others ↔
      ∀ position : Nat, Option.Rel related items[position]? others[position]? := by
  induction items generalizing others with
  | nil =>
    cases others with
    | nil => simp
    | cons second more =>
      simp only [List.forall₂_nil_left_iff, reduceCtorEq, false_iff]
      intro each
      exact Option.not_rel_none_some (each 0)
  | cons first rest ih =>
    cases others with
    | nil =>
      simp only [List.forall₂_nil_right_iff, reduceCtorEq, false_iff]
      intro each
      exact Option.not_rel_some_none (each 0)
    | cons second more =>
      rw [List.forall₂_cons, ih]
      constructor
      · intro both position
        cases position with
        | zero => exact .some both.1
        | succ position => exact both.2 position
      · intro each
        exact ⟨Option.rel_some_some.mp (each 0), fun position => each (position + 1)⟩

theorem Except.bind_eq_ok_iff {ε : Type u} {α β : Type v} {first : Except ε α} {next : α → Except ε β}
    {result : β} : first.bind next = .ok result ↔ ∃ found, first = .ok found ∧ next found = .ok result := by
  cases first with
  | error fault => simp [Except.bind]
  | ok found => simp [Except.bind]
