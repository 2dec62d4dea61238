import ChartTree.Proofs.Chart.Likeness
import ChartTree.Proofs.Compile.TopLevel

/-! Top levels that are wrapped by hand. A root that is given each top level with its view written down does
what it does without: the same results, pushes and hook calls, and the same log but for the lines that
count the nodes of the top level. -/
namespace ChartTree.Chart

def Event.uncounted : Event → Bool
  | log (.compile (.wrapping _)) => false
  | log (.pushing _) => false
  | _ => true

def Wrapped (r s : Root) : Prop := s = { r with topLevel := Registry.wrapTop r.topLevel }

def Operation.wrap : Operation → Operation
  | .setChildren topLevel => .setChildren (Registry.wrapTop topLevel)
  | op => op

namespace Root

theorem reportsWrapped (r : Root) :
    (compileReports { r with topLevel := Registry.wrapTop r.topLevel }).filter Event.uncounted =
      r.compileReports.filter Event.uncounted := by
  unfold compileReports
  rcases r.registry.rootNoticesWrapped r.topLevel with same | counted
  · rw [same]
  · rw [counted, List.map_cons]
    rfl

theorem wrappedLikeness : Likeness Event.uncounted Wrapped where
  alike := by
    intro r s wrapped
    subst wrapped
    refine ⟨rfl, rfl, ?_, r.reportsWrapped, fun spec => ?_, fun what => rfl⟩
    · rw [mergedSpec?, mergedSpec?, Registry.compileRootWrapped]
    · simp only [pushEvents, List.filter_append]
      rfl
  phase := by
    intro r s phase wrapped
    subst wrapped
    rfl

theorem wrapEdit (op : Operation) : Edit Wrapped op op.wrap := by
  cases op with
  | setChildren topLevel =>
    refine ⟨.children .., ?_⟩
    intro r s wrapped
    subst wrapped
    rfl
  | _ =>
    refine ⟨.same _, ?_⟩
    intro r s wrapped
    subst wrapped
    rfl

theorem wrappingChangesNothing (registry : Registry) (nodes : List Node) (options : Options)
    (ops : List Operation) :
    (registry.compileRoot (Registry.wrapTop nodes) = registry.compileRoot nodes ∧
      (registry.compileRoot nodes = none ↔ nodes = []) ∧
      ∀ kind props children, ∃ spec, ∀ id slot,
        registry.compile ⟨.view kind, id, slot, props, children⟩ = spec ∧
          registry.compileRoot [⟨.view kind, id, slot, props, children⟩] = some spec) ∧
    let root := Root.ofOptions options
    List.Forall₂ (Agree Event.uncounted Wrapped) (root.run ops) (root.run (ops.map Operation.wrap)) ∧
    (root.allEvents (ops.map Operation.wrap)).filter Event.uncounted =
      (root.allEvents ops).filter Event.uncounted := by
  refine ⟨⟨registry.compileRootWrapped nodes, registry.compileRootNone nodes, ?_⟩, ?_⟩
  · intro kind props children
    refine ⟨registry.compileParts (.view kind) props children, fun id slot => ?_⟩
    have own := registry.compileOfParts ⟨.view kind, id, slot, props, children⟩
    exact ⟨own, (registry.compileRootView rfl).trans (congrArg some own)⟩
  · intro root
    have edits : List.Forall₂ (Edit Wrapped) ops (ops.map Operation.wrap) :=
      List.forall₂_map_right_iff.mpr (List.forall₂_same.mpr fun op _ => wrapEdit op)
    exact runAgree wrappedLikeness rfl edits

end Root
end ChartTree.Chart
