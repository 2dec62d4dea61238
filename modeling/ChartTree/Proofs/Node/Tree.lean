import ChartTree.Node

/-! Nodes as trees: the induction on children, and the nodes that stand below a node. -/
namespace ChartTree.Node

/- The children stand in a list, so the induction is on the size of the tree. -/
@[elab_as_elim]
theorem childInduction {motive : Node → Prop}
    (node : ∀ n : Node, (∀ child ∈ n.children, motive child) → motive n) (n : Node) : motive n :=
  node n fun child inside =>
    have smaller : sizeOf child < sizeOf n := by
      obtain ⟨tag, id, slot, props, children⟩ := n
      have below : sizeOf child < sizeOf children := List.sizeOf_lt_of_mem inside
      simp only [mk.sizeOf_spec]
      omega
    childInduction node child
termination_by sizeOf n

def descendants (n : Node) : List Node := preorderAll n.children

theorem preorderNode (n : Node) : n.preorder = n :: n.descendants := by
  cases n
  rw [preorder, descendants]

theorem preorderAllFlat (nodes : List Node) : preorderAll nodes = nodes.flatMap preorder := by
  induction nodes with
  | nil => rw [preorderAll, List.flatMap_nil]
  | cons first rest ih => rw [preorderAll, ih, List.flatMap_cons]

theorem preorderSelf (n : Node) (d : Node) : d ∈ n.preorder ↔ d = n ∨ d ∈ n.descendants := by
  rw [preorderNode, List.mem_cons]

theorem descendantBelow (n d : Node) :
    d ∈ n.descendants ↔ ∃ child ∈ n.children, d = child ∨ d ∈ child.descendants := by
  rw [descendants, preorderAllFlat, List.mem_flatMap]
  simp only [preorderSelf]

theorem preorderChild {n child d : Node} (inside : child ∈ n.children) (below : d ∈ child.preorder) :
    d ∈ n.preorder :=
  (n.preorderSelf d).mpr (.inr ((n.descendantBelow d).mpr ⟨child, inside, (child.preorderSelf d).mp below⟩))

end ChartTree.Node
