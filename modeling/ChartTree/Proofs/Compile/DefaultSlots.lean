import ChartTree.Node.Catalogue
import ChartTree.Proofs.Compile.Agreement

/-! What compilation reads from a registry: the default slots of the descendants that have none of their
own. With these slots written down in the tree, every registry compiles it to the same specification. -/
namespace ChartTree

namespace Registry
variable {r s : Registry}

mutual
def explicit (r : Registry) : Node → Node
  | ⟨tag, id, slot, props, children⟩ => ⟨tag, id, slot, props, r.explicitAll children⟩

def explicitAll (r : Registry) : List Node → List Node
  | [] => []
  | child :: rest => (r.explicit child).withSlot (r.slotOf child) :: r.explicitAll rest
end

def settle (r : Registry) (child : Node) : Node := (r.explicit child).withSlot (r.slotOf child)

theorem explicitAllMap (children : List Node) : r.explicitAll children = children.map r.settle := by
  induction children with
  | nil => rw [explicitAll, List.map_nil]
  | cons child rest ih => rw [explicitAll, ih, List.map_cons, settle]

theorem explicitTag (n : Node) : (r.explicit n).tag = n.tag := by
  cases n
  rw [explicit]

theorem explicitProps (n : Node) : (r.explicit n).props = n.props := by
  cases n
  rw [explicit]

theorem explicitChildren (n : Node) : (r.explicit n).children = n.children.map r.settle := by
  cases n
  rw [explicit, explicitAllMap]

theorem settleNamedPair (child : Node) : (r.settle child).namedPair? = child.namedPair? := by
  simp only [Node.namedPair?, settle, Node.withSlot, explicitProps]

theorem settledOccupants (slot : String) (children : List Node) :
    s.occupants slot (children.map r.settle) = (r.occupants slot children).map r.settle := by
  rw [occupants, List.filter_map]
  rfl

theorem withSlotCompile (n : Node) (slot : String) : s.compile (n.withSlot slot) = s.compile n := by
  cases n
  rw [Node.withSlot, compile, compile]

theorem settledBindings (slot : String) (children : List Node) :
    s.bindings slot (children.map r.settle) = r.bindings slot children := by
  have read : Node.namedPair? ∘ r.settle = Node.namedPair? := funext settleNamedPair
  rw [bindings, settledOccupants, List.filterMap_map, read, bindings]

theorem explicitCompile (r s : Registry) (n : Node) : s.compile (r.explicit n) = r.compile n := by
  induction n using Node.childInduction with
  | node n ih =>
    have settled : ∀ child ∈ n.children, s.compile (r.settle child) = r.compile child := by
      intro child inside
      rw [settle, withSlotCompile, ih child inside]
    refine compileSame (explicitTag n) fun key _ => ?_
    rw [explicitChildren, explicitProps]
    have contribution : s.contribution key (n.children.map r.settle) = r.contribution key n.children := by
      refine contributionSame (fun _ => ?_) (fun _ => ?_) (fun _ => ?_)
      · rw [settledOccupants, List.getLast?_map, Option.map_map]
        exact Option.map_congr fun child last =>
          settled child (r.occupantChild.mp (List.mem_of_getLast? last)).1
      · rw [settledOccupants, List.map_map]
        exact List.map_congr_left fun child inside => settled child (r.occupantChild.mp inside).1
      · rw [settledBindings]
    rw [contribution]

def AgreeBelow (r s : Registry) (n : Node) : Prop :=
  ∀ d ∈ n.descendants, d.slot = none → r.defaultSlot d.tag = s.defaultSlot d.tag

theorem agreeBelowChild {n child : Node} (agree : r.AgreeBelow s n) (inside : child ∈ n.children) :
    r.slotOf child = s.slotOf child ∧ r.AgreeBelow s child := by
  refine ⟨?_, fun d below => agree d ((n.descendantBelow d).mpr ⟨child, inside, .inr below⟩)⟩
  have own := agree child ((n.descendantBelow child).mpr ⟨child, inside, .inl rfl⟩)
  cases slot : child.slot with
  | none => simp only [slotOf, slot, own slot]
  | some key => simp only [slotOf, slot, Option.getD_some]

theorem explicitSame {n : Node} (agree : r.AgreeBelow s n) : r.explicit n = s.explicit n := by
  induction n using Node.childInduction with
  | node n ih =>
    have children : n.children.map r.settle = n.children.map s.settle := by
      refine List.map_congr_left fun child inside => ?_
      obtain ⟨slot, below⟩ := agreeBelowChild agree inside
      rw [settle, settle, slot, ih child inside below]
    cases n
    rw [explicit, explicit, explicitAllMap, explicitAllMap, children]

theorem agreeCompile {n : Node} (agree : r.AgreeBelow s n) : r.compile n = s.compile n := by
  rw [← explicitCompile r r n, explicitSame agree, explicitCompile s r n]

/- An entry that repeats the name of its tag says what holds without it. -/
theorem variantSlot {tag : Tag} (free : r.get tag = none) (t : Tag) :
    (r.slot tag tag.variant).defaultSlot t = r.defaultSlot t := by
  rw [defaultSlot, getSlot]
  split
  · rename_i same
    rw [same, defaultSlot, free, Option.getD_none, Option.getD_some]
  · rfl

theorem explicitSlotsSuffice (r : Registry) (n : Node) :
    (∀ s : Registry, s.compile (r.explicit n) = r.compile n) ∧
    (∀ s : Registry, (∀ d ∈ n.descendants, d.slot = none → s.defaultSlot d.tag = r.defaultSlot d.tag) →
      s.compile n = r.compile n) ∧
    ∀ tag, r.get tag = none → (r.slot tag tag.variant).compile n = r.compile n :=
  ⟨fun s => explicitCompile r s n, fun _ agree => agreeCompile agree,
    fun _ free => agreeCompile fun d _ _ => variantSlot free d.tag⟩

theorem fewSlotsSuffice :
    let line := (Node.ofTag (.mark .line)).withChildren
      [(Node.title "sales").withSlot "caption", .encoding .field "x" (.string "genre")]
    let chart := (Node.ofTag .defaultView).withChildren [line]
    let few := ((Registry.empty 7).slot (.mark .line) "children").slot (.encode .field) "encode"
    (Registry.empty 9).compile (standard.explicit chart) = standard.compile chart ∧
    (∀ d ∈ chart.descendants, d.slot = none → few.defaultSlot d.tag = standard.defaultSlot d.tag) ∧
    few.compile chart = standard.compile chart ∧
    few.get (.component .title) = none ∧
    (few.slot (.component .title) "title").compile chart = few.compile chart := by
  intro line chart few
  obtain ⟨written, agreed, _⟩ := explicitSlotsSuffice standard chart
  have agree : ∀ d ∈ chart.descendants, d.slot = none → few.defaultSlot d.tag = standard.defaultSlot d.tag := by
    decide
  exact ⟨written _, agree, agreed few agree, rfl, (explicitSlotsSuffice few chart).2.2 (.component .title) rfl⟩

end Registry
end ChartTree
