import ChartTree.Compile
import ChartTree.Log

/-! What compilation reports while it runs. The notices of a node come before those of its children, and
a child is reported as overwriting its slot after its own notices. -/
namespace ChartTree

inductive Notice where
  | compiling (tag : Tag) (children : Nat)
  | typeIgnored (tag : Tag)
  | overwritten (tag : Tag) (slot : String)
  | dropped (tag : Tag) (slot : String) (child : Tag)
  | wrapping (count : Nat)
  deriving DecidableEq, Repr

namespace Notice

def line : Notice → Log.Line
  | compiling tag children =>
    ⟨.trace, "compile node", [("tag", .text tag.label), ("children", .count children)]⟩
  | typeIgnored tag =>
    ⟨.debug, "own `type` property ignored; the tag decides the variant", [("tag", .text tag.label)]⟩
  | overwritten tag slot =>
    ⟨.trace, "attribute slot overwritten by a later sibling", [("tag", .text tag.label), ("slot", .text slot)]⟩
  | dropped tag slot child =>
    ⟨.debug, "named-pair child without `name` and `value` dropped",
      [("tag", .text tag.label), ("slot", .text slot), ("child", .text child.label)]⟩
  | wrapping count => ⟨.trace, "wrapping top level in implicit view", [("count", .count count)]⟩

end Notice

namespace Registry

/- The list after the tag of the parent holds the single-child slots that are already taken. -/
mutual
def notices (r : Registry) : Node → List Notice
  | ⟨tag, _, _, props, children⟩ =>
    .compiling tag children.length ::
      ((if props.contains typeKey then [.typeIgnored tag] else []) ++ r.placeNotices tag [] children)

def placeNotices (r : Registry) (tag : Tag) (taken : List String) : List Node → List Notice
  | [] => []
  | child :: rest =>
    let slot := r.slotOf child
    match Slot.classify slot with
    | .single =>
      r.notices child ++ ((if slot ∈ taken then [.overwritten tag slot] else []) ++
        r.placeNotices tag (slot :: taken) rest)
    | .collection => r.notices child ++ r.placeNotices tag taken rest
    | .namedPair =>
      (if child.namedPair?.isNone then [.dropped tag slot child.tag] else []) ++ r.placeNotices tag taken rest
end

def noticesOfParts (r : Registry) (tag : Tag) (props : Map Value) (children : List Node) : List Notice :=
  .compiling tag children.length ::
    ((if props.contains typeKey then [.typeIgnored tag] else []) ++ r.placeNotices tag [] children)

def rootNotices (r : Registry) : List Node → List Notice
  | [] => []
  | [node] =>
    if node.tag.isView then r.notices node else .wrapping 1 :: r.noticesOfParts .defaultView .empty [node]
  | nodes => .wrapping nodes.length :: r.noticesOfParts .defaultView .empty nodes

end Registry
end ChartTree
