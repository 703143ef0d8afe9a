import DocPath.Node.Compact
import DocPath.Proofs.Flat.Leaves

/-! Sparse arrays: items at increasing positions and holes between them. The leaves of such an array stand at
the positions of their items, without the holes only the items are left, and there are no holes exactly
if the positions count up. -/

namespace DocPath.Node

/-- The items of an array from a position on, each where it is to stand. -/
def spaced (start : Nat) : List (Nat × Node) → List Node
  | [] => []
  | (position, item) :: rest =>
      List.replicate (position - start) .absent ++ item :: spaced (position + 1) rest

/-- The positions increase and none is before the start. -/
def Ascending (start : Nat) : List (Nat × Node) → Prop
  | [] => True
  | (position, _) :: rest => start ≤ position ∧ Ascending (position + 1) rest

theorem ascending_of_pairwise {start : Nat} {entries : List (Nat × Node)}
    (increasing : (entries.map Prod.fst).Pairwise (· < ·)) (begun : ∀ entry ∈ entries, start ≤ entry.1) :
    Ascending start entries := by
  induction entries generalizing start with
  | nil => trivial
  | cons entry rest ih =>
    obtain ⟨before, later⟩ := List.pairwise_cons.mp increasing
    refine ⟨begun entry List.mem_cons_self, ih later ?_⟩
    exact fun other member => before other.1 (List.mem_map_of_mem member)

theorem mem_spaced {start : Nat} {entries : List (Nat × Node)} {item : Node}
    (member : item ∈ spaced start entries) : item = .absent ∨ item ∈ entries.map Prod.snd := by
  induction entries generalizing start with
  | nil => cases member
  | cons entry rest ih =>
    rcases List.mem_append.mp member with padding | others
    · exact Or.inl (List.eq_of_mem_replicate padding)
    · rcases List.mem_cons.mp others with here | later
      · exact Or.inr (here ▸ List.mem_cons_self)
      · exact (ih later).imp_right (List.mem_cons_of_mem entry.2)

theorem length_spaced_le {start bound : Nat} {entries : List (Nat × Node)}
    (ascending : Ascending start entries) (within : ∀ entry ∈ entries, entry.1 < bound)
    (begun : start ≤ bound) : start + (spaced start entries).length ≤ bound := by
  induction entries generalizing start with
  | nil => exact begun
  | cons entry rest ih =>
    have here := within entry List.mem_cons_self
    have later := ih ascending.2 (fun other member => within other (List.mem_cons_of_mem entry member)) here
    have first := ascending.1
    simp only [spaced, List.length_append, List.length_replicate, List.length_cons]
    omega

theorem getLast?_spaced (start : Nat) (entries : List (Nat × Node)) :
    (spaced start entries).getLast? = (entries.map Prod.snd).getLast? := by
  induction entries generalizing start with
  | nil => rfl
  | cons entry rest ih =>
    rw [spaced, List.getLast?_append, List.getLast?_cons, ih, List.map_cons, List.getLast?_cons]
    rfl

theorem filter_spaced {entries : List (Nat × Node)} (present : ∀ entry ∈ entries, entry.2 ≠ .absent)
    (start : Nat) :
    ((spaced start entries).filter fun item => !item.isAbsent) = entries.map Prod.snd := by
  induction entries generalizing start with
  | nil => rfl
  | cons entry rest ih =>
    have kept : (!entry.2.isAbsent) = true := not_isAbsent_iff.mpr (present entry List.mem_cons_self)
    have later := ih (fun other member => present other (List.mem_cons_of_mem entry member)) (entry.1 + 1)
    have holes : (List.replicate (entry.1 - start) Node.absent).filter (fun item => !item.isAbsent) = [] := by
      rw [List.filter_replicate]
      rfl
    rw [spaced, List.filter_append, holes, List.nil_append, List.filter_cons, if_pos kept, later]
    rfl

theorem absent_not_mem_spaced_iff {start : Nat} {entries : List (Nat × Node)}
    (ascending : Ascending start entries) (present : ∀ entry ∈ entries, entry.2 ≠ .absent) :
    .absent ∉ spaced start entries ↔ entries.map Prod.fst = List.range' start entries.length := by
  induction entries generalizing start with
  | nil => simp [spaced]
  | cons entry rest ih =>
    have here := present entry List.mem_cons_self
    have later := ih ascending.2 fun other member => present other (List.mem_cons_of_mem entry member)
    have first := ascending.1
    have padding : .absent ∉ List.replicate (entry.1 - start) Node.absent ↔ entry.1 = start := by
      have between : entry.1 - start = 0 ↔ entry.1 = start := by omega
      simpa [List.mem_replicate] using between
    rw [spaced, List.mem_append, List.mem_cons, not_or, not_or, padding, later, List.map_cons,
      List.length_cons, List.range'_succ, List.cons.injEq]
    constructor
    · intro parts
      exact ⟨parts.1, parts.1 ▸ parts.2.2⟩
    · intro parts
      exact ⟨parts.1, here.symm, parts.1 ▸ parts.2⟩

theorem spaced_of_dense {start : Nat} {entries : List (Nat × Node)} (whole : .absent ∉ spaced start entries)
    (present : ∀ entry ∈ entries, entry.2 ≠ .absent) : spaced start entries = entries.map Prod.snd := by
  rw [← filter_spaced present start, filter_of_dense whole]

theorem leaves_spaced {start : Nat} {entries : List (Nat × Node)} (ascending : Ascending start entries) :
    (((spaced start entries).zipIdx start).flatMap fun item =>
        item.1.leaves.map (Path.under (.index (Index.ofPosition item.2)))) =
      entries.flatMap fun entry =>
        entry.2.leaves.map (Path.under (.index (Index.ofPosition entry.1))) := by
  induction entries generalizing start with
  | nil => rfl
  | cons entry rest ih =>
    have holes : ((List.replicate (entry.1 - start) Node.absent).zipIdx start).flatMap (fun item =>
        item.1.leaves.map (Path.under (.index (Index.ofPosition item.2)))) = [] := by
      apply List.flatMap_eq_nil_iff.mpr
      intro item member
      obtain ⟨position, value⟩ := item
      rw [List.eq_of_mem_replicate (List.fst_mem_of_mem_zipIdx member), leaves_absent]
      rfl
    have next : start + (entry.1 - start) = entry.1 := Nat.add_sub_cancel' ascending.1
    rw [spaced, List.zipIdx_append, List.flatMap_append, holes, List.length_replicate, next,
      List.zipIdx_cons, List.flatMap_cons, List.flatMap_cons, ih ascending.2]
    rfl

end DocPath.Node
