import ChartTree.Tag
import ChartTree.Value

/-! Declared nodes. A node has a tag, own properties and ordered children; its identifier and its explicit
slot are optional, and identifiers need not be unique. -/
namespace ChartTree

structure Node where
  tag : Tag
  id : Option UInt64
  slot : Option String
  props : Map Value
  children : List Node

namespace Node

def nameKey : String := "name"
def valueKey : String := "value"

def ofTag (tag : Tag) : Node := ⟨tag, none, none, .empty, []⟩

instance : Inhabited Node := ⟨ofTag .defaultView⟩

def withProp (n : Node) (key : String) (value : Value) : Node := { n with props := n.props.insert key value }

def withProps (n : Node) (bindings : List (String × Value)) : Node :=
  { n with props := n.props.extend bindings }

def withChild (n : Node) (child : Node) : Node := { n with children := n.children ++ [child] }

def withChildren (n : Node) (children : List Node) : Node := { n with children := n.children ++ children }

def withSlot (n : Node) (slot : String) : Node := { n with slot := some slot }

def withId (n : Node) (id : UInt64) : Node := { n with id := some id }

def setProps (n : Node) (props : Map Value) : Node := { n with props }

def setChildren (n : Node) (children : List Node) : Node := { n with children }

def namedPair? (n : Node) : Option (String × Value) := do
  let name ← (← n.props.get? nameKey).string?
  let value ← n.props.get? valueKey
  if value.isNull then none else some (name, value)

mutual
def find? (id : UInt64) : Node → Option Node
  | ⟨tag, own, slot, props, children⟩ =>
    if own = some id then some ⟨tag, own, slot, props, children⟩ else findIn? id children

def findIn? (id : UInt64) : List Node → Option Node
  | [] => none
  | child :: rest => (find? id child).or (findIn? id rest)
end

mutual
def preorder : Node → List Node
  | ⟨tag, id, slot, props, children⟩ => ⟨tag, id, slot, props, children⟩ :: preorderAll children

def preorderAll : List Node → List Node
  | [] => []
  | child :: rest => preorder child ++ preorderAll rest
end

mutual
def same : Node → Node → Bool
  | ⟨tag, id, slot, props, children⟩, other =>
    tag == other.tag && id == other.id && slot == other.slot && Value.sameMap props other.props &&
      sameAll children other.children

def sameAll : List Node → List Node → Bool
  | [], [] => true
  | a :: as, b :: bs => same a b && sameAll as bs
  | _, _ => false
end

end Node
end ChartTree
