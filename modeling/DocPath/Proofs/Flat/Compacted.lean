import Mathlib.Data.List.Induction
import DocPath.Node.Compact
import DocPath.Proofs.Flat.Leaves

/-! The leaves of a compacted document. Every item moves to the front by the holes before it, and the
leaves below it move along; no leaf is lost and their order stays. -/

namespace DocPath.Node

/-- How many items stand before a position. -/
def ahead (items : List Node) (position : Nat) : Nat :=
  (items.take position).countP fun item => !item.isAbsent

/-- The token that leads to a child once the holes are gone. -/
def moved : Node → Token → Token
  | .array items, .index position => .index (Index.ofPosition (ahead items position))
  | _, token => token

/-- The path of what stands at a path once the holes are gone. -/
def packed : Path → Node → Path
  | [], _ => []
  | token :: rest, node => node.moved token :: packed rest (node.slot token)

theorem ahead_of_le {items : List Node} {position : Nat} (within : position ≤ items.length)
    (others : List Node) : ahead (items ++ others) position = ahead items position := by
  unfold ahead
  rw [List.take_append_of_le_length within]

theorem ahead_eq_countP_range (items : List Node) (position : Nat) :
    ahead items position =
      (List.range position).countP fun place => !(items[place]?.getD .absent).isAbsent := by
  induction position with
  | zero => rfl
  | succ position ih =>
    unfold ahead at ih ⊢
    rw [List.take_add_one, List.countP_append, ih, List.range_succ, List.countP_append]
    congr 1
    cases found : items[position]? with
    | none => simp [found, isAbsent]
    | some item => simp [found]

theorem flatMap_zipIdx_filter {β : Type} (items : List Node) (each : Node → Nat → List β)
    (hole : ∀ position, each .absent position = []) :
    (items.filter fun item => !item.isAbsent).zipIdx.flatMap (fun item => each item.1 item.2) =
      items.zipIdx.flatMap fun item => each item.1 (ahead items item.2) := by
  induction items using List.reverseRecOn with
  | nil => rfl
  | append_singleton front last ih =>
    have earlier : front.zipIdx.flatMap (fun item => each item.1 (ahead (front ++ [last]) item.2)) =
        front.zipIdx.flatMap fun item => each item.1 (ahead front item.2) := by
      apply List.flatMap_congr
      intro item member
      obtain ⟨within, -⟩ := List.getElem?_eq_some_iff.mp (List.mem_zipIdx_iff_getElem?.mp member)
      rw [ahead_of_le (Nat.le_of_lt within)]
    have here : ahead (front ++ [last]) front.length =
        (front.filter fun item => !item.isAbsent).length := by
      rw [ahead_of_le (Nat.le_refl _), ahead, List.take_length, List.countP_eq_length_filter]
    rw [List.filter_append, List.zipIdx_append, List.flatMap_append, ih, List.zipIdx_append,
      List.flatMap_append, earlier, Nat.zero_add, Nat.zero_add]
    congr 1
    by_cases absent : last = .absent
    · subst absent
      have nothing := hole (ahead (front ++ [.absent]) front.length)
      rw [List.zipIdx_singleton, List.flatMap_singleton, nothing]
      rfl
    · have present : (!last.isAbsent) = true := not_isAbsent_iff.mpr absent
      rw [List.filter_singleton, present, cond_true, List.zipIdx_singleton, List.zipIdx_singleton,
        List.flatMap_singleton, List.flatMap_singleton, here]

theorem leaves_compact_of_container {node : Node} (container : node.isContainer = true)
    (addressable : node.Addressable) :
    node.compact.leaves = node.children.flatMap fun child =>
      child.2.compact.leaves.map (Path.under (node.moved child.1)) := by
  cases node with
  | absent | null | bool | number | string => cases container
  | object fields =>
    rw [compact, leaves_object, children, List.flatMap_map, List.flatMap_map]
    rfl
  | array items =>
    have hole : ∀ position, (compact .absent).leaves.map
        (Path.under (.index (Index.ofPosition position))) = [] := by
      intro position
      rw [compact_of_not_container rfl, leaves]
      rfl
    rw [compact, leaves_array, List.zipIdx_map, List.flatMap_map]
    rw [children, List.flatMap_map]
    show ((items.filter fun item => !item.isAbsent).zipIdx.flatMap fun item =>
      item.1.compact.leaves.map (Path.under (.index (Index.ofPosition item.2)))) = _
    rw [flatMap_zipIdx_filter items (fun item position =>
      item.compact.leaves.map (Path.under (.index (Index.ofPosition position)))) hole]
    apply List.flatMap_congr
    intro item member
    obtain ⟨within, -⟩ := List.getElem?_eq_some_iff.mp (List.mem_zipIdx_iff_getElem?.mp member)
    show _ = item.1.compact.leaves.map (Path.under (.index (Index.ofPosition
      (ahead items (Index.ofPosition item.2).val))))
    rw [Index.val_ofPosition (Nat.lt_of_lt_of_le within addressable)]

theorem leaves_compact {node : Node} (addressable : Everywhere Addressable node) :
    node.compact.leaves = node.leaves.map fun leaf => (packed leaf.1 node, leaf.2) := by
  induction node using induction_children with
  | single node single =>
    rw [compact_of_not_container single, leaves_of_not_container single, List.map_map]
    rfl
  | container node container each =>
    have here := (everywhere_iff.mp addressable).1
    rw [leaves_compact_of_container container here, leaves_of_container container, List.map_flatMap]
    apply List.flatMap_congr
    intro child member
    by_cases hole : child.2 = .absent
    · rw [hole, compact_of_not_container rfl, leaves]
      rfl
    · have held := (mem_children_iff here hole).mp member
      rw [each child member (addressable.child member), List.map_map, List.map_map]
      apply List.map_congr_left
      intro leaf _
      show (node.moved child.1 :: packed leaf.1 child.2, leaf.2) =
        (node.moved child.1 :: packed leaf.1 (node.slot child.1), leaf.2)
      rw [held]

end DocPath.Node
