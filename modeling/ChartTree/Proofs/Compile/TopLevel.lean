import ChartTree.Compile.Notice
import ChartTree.Proofs.Compile.Placement

/-! The top level of a chart. What is no single view is compiled as the children of a view for which no node
is made; with that view written down, the top level is a single view and compiles alike. -/
namespace ChartTree.Registry

def wrapTop : List Node → List Node
  | [] => []
  | [node] => if node.tag.isView then [node] else [implicitView [node]]
  | nodes => [implicitView nodes]

theorem compileRootNone (r : Registry) (nodes : List Node) :
    r.compileRoot nodes = none ↔ nodes = [] := by
  cases nodes with
  | nil => simp [compileRoot]
  | cons first rest => cases rest <;> simp [compileRoot]

def rootVariant : List Node → String
  | [node] => if node.tag.isView then node.tag.variant else "view"
  | _ => "view"

theorem partsType (r : Registry) (tag : Tag) (props : Map Value) (children : List Node) :
    (r.compileParts tag props children).get? typeKey = some (.string tag.variant) :=
  (Layers.getAssemble _ tag props typeKey).trans (if_pos rfl)

theorem compileRootType {r : Registry} {nodes : List Node} {spec : Spec}
    (compiled : r.compileRoot nodes = some spec) :
    spec.get? typeKey = some (.string (rootVariant nodes)) := by
  cases nodes with
  | nil => cases compiled
  | cons first rest =>
    cases rest with
    | nil =>
      cases Option.some.inj compiled
      rw [rootVariant]
      split
      · exact (r.getCompile first typeKey).trans (if_pos rfl)
      · exact r.partsType ..
    | cons second rest =>
      cases Option.some.inj compiled
      exact r.partsType ..

theorem compileOfParts (r : Registry) (n : Node) : r.compile n = r.compileParts n.tag n.props n.children := by
  cases n
  rw [compile, compileParts]

theorem noticesOfNode (r : Registry) (n : Node) :
    r.notices n = r.noticesOfParts n.tag n.props n.children := by
  cases n
  rw [notices, noticesOfParts]

theorem compileRootView (r : Registry) {node : Node} (view : node.tag.isView = true) :
    r.compileRoot [node] = some (r.compile node) :=
  congrArg some (if_pos view)

theorem compileRootImplicit (r : Registry) (nodes : List Node) :
    r.compileRoot [implicitView nodes] = some (r.compileParts .defaultView .empty nodes) :=
  (r.compileRootView rfl).trans (congrArg some (r.compileOfParts (implicitView nodes)))

theorem rootNoticesView (r : Registry) {node : Node} (view : node.tag.isView = true) :
    r.rootNotices [node] = r.notices node :=
  if_pos view

theorem rootNoticesImplicit (r : Registry) (nodes : List Node) :
    r.rootNotices [implicitView nodes] = r.noticesOfParts .defaultView .empty nodes :=
  (r.rootNoticesView rfl).trans (r.noticesOfNode (implicitView nodes))

theorem compileRootWrapped (r : Registry) (nodes : List Node) :
    r.compileRoot (wrapTop nodes) = r.compileRoot nodes := by
  cases nodes with
  | nil => rfl
  | cons first rest =>
    cases rest with
    | nil =>
      rw [wrapTop]
      split
      · rfl
      · rename_i bare
        exact (r.compileRootImplicit [first]).trans (congrArg some (if_neg bare).symm)
    | cons second rest => exact r.compileRootImplicit (first :: second :: rest)

theorem rootNoticesWrapped (r : Registry) (nodes : List Node) :
    r.rootNotices nodes = r.rootNotices (wrapTop nodes) ∨
      r.rootNotices nodes = .wrapping nodes.length :: r.rootNotices (wrapTop nodes) := by
  cases nodes with
  | nil => exact .inl rfl
  | cons first rest =>
    cases rest with
    | nil =>
      rw [wrapTop]
      split
      · exact .inl rfl
      · rename_i bare
        rw [rootNoticesImplicit]
        exact .inr (if_neg bare)
    | cons second rest =>
      have written := r.rootNoticesImplicit (first :: second :: rest)
      exact .inr (congrArg (Notice.wrapping (rest.length + 2) :: ·) written.symm)

end ChartTree.Registry
