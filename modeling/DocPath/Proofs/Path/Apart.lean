import DocPath.Path

/-! Paths that lie apart: neither leads on from the other. Two such paths share a front, after which
they go on with different tokens. -/

namespace DocPath.Path

/-- Neither path is the other one or leads to it. -/
def Apart (path other : Path) : Prop := ¬path <+: other ∧ ¬other <+: path

instance (path other : Path) : Decidable (Apart path other) :=
  inferInstanceAs (Decidable (¬path <+: other ∧ ¬other <+: path))

theorem Apart.symm {path other : Path} (apart : Apart path other) : Apart other path :=
  ⟨apart.2, apart.1⟩

theorem Apart.ne {path other : Path} (apart : Apart path other) : path ≠ other := by
  rintro rfl
  exact apart.1 (List.prefix_refl path)

theorem nodup_of_apart {α : Type} {entries : List (Path × α)}
    (apart : entries.Pairwise fun first second => Apart first.1 second.1) : entries.Nodup :=
  apart.imp fun away same => away.ne (congrArg Prod.fst same)

theorem not_apart_nil (path : Path) : ¬Apart [] path := fun apart => apart.1 (List.nil_prefix)

theorem Apart.ne_nil {path other : Path} (apart : Apart path other) : path ≠ [] := by
  rintro rfl
  exact not_apart_nil other apart

theorem apart_cons_iff {token other : Token} {path way : Path} :
    Apart (token :: path) (other :: way) ↔ token = other → Apart path way := by
  unfold Apart
  rw [List.cons_prefix_cons, List.cons_prefix_cons]
  constructor
  · rintro ⟨forth, back⟩ rfl
    exact ⟨fun leads => forth ⟨rfl, leads⟩, fun leads => back ⟨rfl, leads⟩⟩
  · intro apart
    exact ⟨fun leads => (apart leads.1).1 leads.2, fun leads => (apart leads.1.symm).2 leads.2⟩

theorem apart_of_ne {token other : Token} (differ : token ≠ other) {front path way : Path}
    (leads : front ++ [token] <+: path) (otherLeads : front ++ [other] <+: way) : Apart path way := by
  obtain ⟨back, rfl⟩ := leads
  obtain ⟨rest, rfl⟩ := otherLeads
  induction front with
  | nil => exact apart_cons_iff.mpr fun same => absurd same differ
  | cons first front ih => exact apart_cons_iff.mpr fun _ => ih

theorem prefix_or_apart (path other : Path) : path <+: other ∨ other <+: path ∨ Apart path other := by
  by_cases forth : path <+: other
  · exact Or.inl forth
  · by_cases back : other <+: path
    · exact Or.inr (Or.inl back)
    · exact Or.inr (Or.inr ⟨forth, back⟩)

end DocPath.Path
