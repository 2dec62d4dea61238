import ChartTree.Proofs.Compile.DefaultSlots
import ChartTree.Proofs.Compile.EntrySource
import ChartTree.Proofs.Json.RoundTrip

/-! Compilation makes up no numbers: each one in a specification stands in a property of the tree. So the
specification of a tree of finite numbers is read back from its text. -/
namespace ChartTree

namespace Registry
variable {r : Registry} {p : Number → Bool}

theorem bindingNumbers {key name : String} {value : Value} {children : List Node}
    (own : ∀ child ∈ children, (Value.object child.props).allNumbers p)
    (bound : (name, value) ∈ r.bindings key children) : value.allNumbers p := by
  obtain ⟨child, inside, pair⟩ := List.mem_filterMap.mp bound
  obtain ⟨-, read, -⟩ := (child.namedPairBinds name value).mp pair
  exact (Value.entriesAllIff child.props).mp (own child (r.occupantChild.mp inside).1) "value" value read

theorem contributionNumbers {key : String} {value : Value} {children : List Node}
    (own : ∀ child ∈ children, (Value.object child.props).allNumbers p)
    (compiled : ∀ child ∈ children, (r.compile child).toValue.allNumbers p)
    (put : r.contribution key children = some value) : value.allNumbers p := by
  unfold contribution at put
  split at put
  · obtain ⟨last, taken, rfl⟩ := Option.map_eq_some_iff.mp put
    exact compiled last (r.occupantChild.mp (List.mem_of_getLast? taken)).1
  · split at put
    · cases put
    · cases put
      refine (Value.itemsAllIff _).mpr fun item inside => ?_
      obtain ⟨child, occupies, rfl⟩ := List.mem_map.mp inside
      exact compiled child (r.occupantChild.mp occupies).1
  · split at put
    · cases put
    · cases put
      exact (Value.entriesAllIff _).mpr fun name value found => bindingNumbers own (Entries.ofListFound found)

theorem compileNumbers {n : Node} (own : ∀ d ∈ n.preorder, (Value.object d.props).allNumbers p) :
    (r.compile n).toValue.allNumbers p := by
  induction n using Node.childInduction with
  | node n ih =>
    have below : ∀ child ∈ n.children, ∀ d ∈ child.preorder, (Value.object d.props).allNumbers p :=
      fun child inside d deeper => own d (Node.preorderChild inside deeper)
    have first : ∀ m : Node, m ∈ m.preorder := fun m => (m.preorderSelf m).mpr (.inl rfl)
    refine (Value.entriesAllIff _).mpr fun key value found => ?_
    have entry := (r.getCompile n key).symm.trans found
    split at entry
    · cases entry
      rfl
    · rcases Option.or_eq_some_iff.mp entry with put | ⟨-, property⟩
      · exact contributionNumbers (fun child inside => below child inside child (first child))
          (fun child inside => ih child inside (below child inside)) put
      · exact (Value.entriesAllIff n.props).mp (own n (first n)) key value property

theorem compiledSurvivesText (r : Registry) (n : Node)
    (finite : ∀ d ∈ n.preorder, (Value.object d.props).isFinite) :
    (r.compile n).toValue.isFinite ∧
    ((r.compile n).toValue.depth ≤ Json.nestingLimit →
      (∀ text, Json.IsText (r.compile n).toValue text → ∃ read, Json.readSpec text = .ok read ∧
        read = r.compile n ∧ read.same (r.compile n) ∧ read.kind = (r.compile n).kind) ∧
      Json.readSpec (Json.compact (r.compile n).toValue) = .ok (r.compile n)) := by
  have numbers : (r.compile n).toValue.isFinite := compileNumbers finite
  refine ⟨numbers, fun nested => ⟨fun text isText => ?_, Json.readsSpec (Json.compactIsText _) nested numbers⟩⟩
  exact ⟨r.compile n, Json.readsSpec isText nested numbers, rfl, Value.finiteSelf numbers, rfl⟩

/- A property and a slot are called like the type entry, and the numbers are a negative zero and the least
magnitude. -/
theorem typedChildrenSurvive :
    let line := ((Node.ofTag (.mark .line)).withProp "data" (.array [.number (.zero true)])).withChildren
      [(Node.title "sales").withSlot "type", .encoding .field "x" (.number (.finite true ⟨1, by decide⟩))]
    let chart := ((Node.ofTag .defaultView).withProp "type" (.string "own")).withChildren [line]
    (∀ d ∈ chart.preorder, (Value.object d.props).isFinite) ∧
    (standard.compile chart).toValue.depth ≤ Json.nestingLimit ∧
    Json.readSpec (Json.compact (standard.compile chart).toValue) = .ok (standard.compile chart) := by
  intro line chart
  have finite : ∀ d ∈ chart.preorder, (Value.object d.props).isFinite := by decide
  have nested : (standard.compile chart).toValue.depth ≤ Json.nestingLimit := by decide
  exact ⟨finite, nested, ((compiledSurvivesText standard chart finite).2 nested).2⟩

end Registry
end ChartTree
