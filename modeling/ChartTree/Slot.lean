/-! Slots: the keys under which children appear in their parent's specification. The key alone decides
how the children that share it are merged. -/
namespace ChartTree

inductive SlotClass where
  | single
  | collection
  | namedPair
  deriving DecidableEq, Repr

def SlotClass.label : SlotClass → String
  | single => "Attribute"
  | collection => "Collection"
  | namedPair => "NamedPair"

namespace Slot

def known : List String :=
  ["children", "transform", "legends", "labels", "encode", "axis", "data", "coordinate", "title"]

def collections : List String := ["children", "transform", "legends", "labels"]

def namedPairs : List String := ["encode", "axis"]

def classify (key : String) : SlotClass :=
  if key ∈ collections then .collection
  else if key ∈ namedPairs then .namedPair
  else .single

theorem classifyCollection (key : String) : classify key = .collection ↔ key ∈ collections := by
  unfold classify
  split
  · simp_all
  · split <;> simp_all

theorem classifyNamedPair (key : String) : classify key = .namedPair ↔ key ∈ namedPairs := by
  unfold classify
  split
  · rename_i h
    simp only [collections, List.mem_cons, List.not_mem_nil, or_false] at h
    rcases h with rfl | rfl | rfl | rfl <;> decide
  · split <;> simp_all

theorem classifyType : classify "type" = .single := by decide

end Slot
end ChartTree
