import Mathlib.Data.List.Basic
import Mathlib.Logic.Function.Basic

namespace Autolock
namespace Data

/-!
# Singly linked lists

The nodes found when following the links from a pointer to `NULL`.
-/

variable {Node Ptr : Type} {address : Node -> Ptr} {null : Ptr}

/-- From the pointer the links lead through these nodes, in this order, to `null`. -/
def Linked (address : Node -> Ptr) (null : Ptr) (next : Node -> Ptr) : Ptr -> List Node -> Prop
  | p, [] => p = null
  | p, node :: nodes => p = address node ∧ Linked address null next (next node) nodes

variable {next next' : Node -> Ptr} {p : Ptr} {nodes : List Node}

/-- Only the links of the members matter. -/
theorem Linked.congr (linked : Linked address null next p nodes)
    (same : forall node, node ∈ nodes -> next' node = next node) :
    Linked address null next' p nodes := by
  induction nodes generalizing p with
  | nil => exact linked
  | cons node nodes inductionHypothesis =>
      rcases linked with ⟨first, rest⟩
      rw [List.forall_mem_cons] at same
      refine ⟨first, ?_⟩
      rw [same.1]
      exact inductionHypothesis rest same.2

/-- The link of a node that is not in the list may change. -/
theorem Linked.update [DecidableEq Node] (linked : Linked address null next p nodes) {node : Node}
    (absent : node ∉ nodes) (link : Ptr) :
    Linked address null (Function.update next node link) p nodes := by
  refine linked.congr fun member present => Function.update_of_ne ?_ link next
  rintro rfl
  exact absent present

theorem Linked.eq_nil (linked : Linked address null next null nodes)
    (valid : forall node, address node ≠ null) : nodes = [] := by
  cases nodes with
  | nil => rfl
  | cons node nodes => exact absurd linked.1.symm (valid node)

theorem Linked.of_address (linked : Linked address null next p nodes) (valid : p ≠ null) :
    exists node rest, nodes = node :: rest ∧ p = address node ∧
      Linked address null next (next node) rest := by
  cases nodes with
  | nil => exact absurd linked valid
  | cons node rest => exact ⟨node, rest, rfl, linked⟩

end Data
end Autolock
