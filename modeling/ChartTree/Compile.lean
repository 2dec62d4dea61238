import ChartTree.Node
import ChartTree.Registry
import ChartTree.Slot
import ChartTree.Spec

/-! Compilation of declared trees. A specification starts as the node's own properties; each child is put
into a slot, and what the children put there replaces own properties of the same key wholesale. The type
entry is always the variant of the tag. -/
namespace ChartTree

structure Layers where
  singles : Map Value
  collections : Map (List Value)
  pairs : Map (Map Value)

namespace Layers

def empty : Layers := ⟨.empty, .empty, .empty⟩

def occupy (l : Layers) (slot : String) (value : Value) : Layers :=
  { l with singles := l.singles.insert slot value }

def append (l : Layers) (slot : String) (value : Value) : Layers :=
  { l with collections := l.collections.insert slot ((l.collections.get? slot).getD [] ++ [value]) }

def bind (l : Layers) (slot : String) (name : String) (value : Value) : Layers :=
  { l with pairs := l.pairs.insert slot (((l.pairs.get? slot).getD .empty).insert name value) }

def onto (l : Layers) (props : Map Value) : Map Value :=
  ((props.overlay l.singles).overlay (l.collections.map .array)).overlay (l.pairs.map .object)

def assemble (l : Layers) (tag : Tag) (props : Map Value) : Spec :=
  ⟨(l.onto (props.erase typeKey)).insert typeKey (.string tag.variant), tag.variant,
    by rw [Entries.getInsert, if_pos rfl]⟩

/- Named pairs lie over collections, collections over single children, and these over own properties. -/
theorem getOnto (l : Layers) (props : Map Value) (key : String) :
    (l.onto props).get? key =
      ((l.pairs.get? key).map .object).or (((l.collections.get? key).map .array).or
        ((l.singles.get? key).or (props.get? key))) := by
  simp [onto, Entries.getOverlay, Entries.getMap]

theorem getAssemble (l : Layers) (tag : Tag) (props : Map Value) (key : String) :
    (l.assemble tag props).get? key =
      if key = typeKey then some (.string tag.variant) else (l.onto (props.erase typeKey)).get? key := by
  simp [assemble, Spec.get?, Entries.getInsert]

end Layers

namespace Registry

def slotOf (r : Registry) (n : Node) : String := n.slot.getD (r.defaultSlot n.tag)

/- A child in a named-pair slot is read but not compiled, and one that is no named pair is dropped. -/
mutual
def compile (r : Registry) : Node → Spec
  | ⟨tag, _, _, props, children⟩ => (r.place children .empty).assemble tag props

def place (r : Registry) : List Node → Layers → Layers
  | [], layers => layers
  | child :: rest, layers =>
    let slot := r.slotOf child
    r.place rest (match Slot.classify slot with
      | .single => layers.occupy slot (r.compile child).toValue
      | .collection => layers.append slot (r.compile child).toValue
      | .namedPair =>
        match child.namedPair? with
        | some (name, value) => layers.bind slot name value
        | none => layers)
end

def compileParts (r : Registry) (tag : Tag) (props : Map Value) (children : List Node) : Spec :=
  (r.place children .empty).assemble tag props

/-- Compiles the top level of a chart; an empty one has no specification. What is no single view is compiled
as the children of a view, and no node is made for the view. -/
def compileRoot (r : Registry) : List Node → Option Spec
  | [] => none
  | [node] => some (if node.tag.isView then r.compile node else r.compileParts .defaultView .empty [node])
  | nodes => some (r.compileParts .defaultView .empty nodes)

def implicitView (nodes : List Node) : Node := (Node.ofTag .defaultView).withChildren nodes

end Registry
end ChartTree
