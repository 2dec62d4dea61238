import ChartTree.Proofs.Compile.Address
import ChartTree.Proofs.Compile.Finiteness
import ChartTree.Proofs.Compile.Pruning
import ChartTree.Proofs.Value.Sameness

/-! Which numbers a specification has. They are those in the properties that are left when the tree is
pruned: nothing dead gets into the specification, and all that lives does. -/
namespace ChartTree
variable {m : Number}

namespace Value

theorem occursAt {v w : Value} {address : List Access} (found : v.at? address = some w) (occurs : Occurs m w) :
    Occurs m v := by
  induction address generalizing v with
  | nil =>
    cases found
    exact occurs
  | cons access rest ih =>
    obtain ⟨part, read, deeper⟩ := Option.bind_eq_some_iff.mp found
    have below : Occurs m part := ih deeper
    cases access with
    | key key =>
      cases v with
      | object entries => exact .entry read below
      | _ => cases read
    | index place =>
      cases v with
      | array items => exact .item (List.mem_of_getElem? read) below
      | _ => cases read

end Value

namespace Registry
variable {r : Registry} {n child : Node}

theorem declaredOccurs (occurs : Value.Occurs m (r.compile n).toValue) :
    ∃ d ∈ n.preorder, Value.Occurs m (.object d.props) := by
  by_contra absent
  push Not at absent
  exact Value.absentIff.mpr (compileNumbers fun d inside => Value.absentIff.mp (absent d inside)) occurs

theorem propertyOccurs (pruned : r.Pruned n) (occurs : Value.Occurs m (.object n.props)) :
    Value.Occurs m (r.compile n).toValue := by
  obtain ⟨_, type, shown, _, _, _⟩ := pruned
  obtain ⟨key, value, found, inside⟩ := Value.occursEntry.mp occurs
  have other : key ≠ typeKey := by
    intro same
    subst same
    cases type.symm.trans found
  have free : r.occupants key n.children = [] := by
    refine List.filter_eq_nil_iff.mpr fun child within taken => ?_
    cases of_decide_eq_true taken
    cases (shown child within).symm.trans found
  have entry : (r.compile n).get? key = some value := by
    rw [getCompile, if_neg other, contributionFree n.children (.inl free), Option.none_or, found]
  exact .entry entry inside

theorem compiledChildOccurs (pruned : r.Pruned n) (inside : child ∈ n.children)
    (kind : Slot.classify (r.slotOf child) ≠ .namedPair) (occurs : Value.Occurs m (r.compile child).toValue) :
    Value.Occurs m (r.compile n).toValue := by
  obtain ⟨_, _, _, live, _, _⟩ := pruned
  obtain ⟨front, later, split⟩ := List.append_of_mem inside
  have alive := live front child later split
  cases own : Slot.classify (r.slotOf child) with
  | single =>
    have turn : r.Turn front child later [.key (r.slotOf child)] :=
      .single own (fun typed => alive (.typed typed))
        fun sibling after same => alive (.overwritten own after same)
    exact Value.occursAt (turnRead split turn) occurs
  | collection => exact Value.occursAt (turnRead split (.collection own)) occurs
  | namedPair => exact absurd own kind

theorem bareOccurs {name : String} {value : Value} (bare : child.Bare) (binds : child.Binds name value)
    (occurs : Value.Occurs m (.object child.props)) : Value.Occurs m value := by
  obtain ⟨key, own, found, inside⟩ := Value.occursEntry.mp occurs
  by_cases named : key = "name"
  · subst named
    cases binds.1.symm.trans found
    cases inside
  · by_cases valued : key = "value"
    · subst valued
      cases binds.2.1.symm.trans found
      exact inside
    · cases (bare.props key named valued).symm.trans found

theorem pairOccurs (pruned : r.Pruned n) (inside : child ∈ n.children)
    (kind : Slot.classify (r.slotOf child) = .namedPair) (occurs : Value.Occurs m (.object child.props)) :
    Value.Occurs m (r.compile n).toValue := by
  obtain ⟨_, _, _, live, bare, _⟩ := pruned
  obtain ⟨front, later, split⟩ := List.append_of_mem inside
  have alive := live front child later split
  obtain ⟨name, value, binds⟩ : child.WellFormed := by
    by_contra unread
    exact alive (.malformed kind unread)
  have last : Node.LastBinding (r.occupants (r.slotOf child) n.children) name value := by
    refine ⟨r.occupants (r.slotOf child) front, child, r.occupants (r.slotOf child) later, ?_, binds, ?_⟩
    · rw [split, occupantsAround, if_pos rfl]
      rfl
    · intro sibling after other rebinds
      obtain ⟨stands, same⟩ := r.occupantChild.mp after
      exact alive (.rebound kind binds stands same rebinds)
  have typed : r.slotOf child ≠ "type" := by
    intro typed
    rw [typed] at kind
    cases kind
  have taken : ∃ other ∈ r.occupants (r.slotOf child) n.children, other.WellFormed :=
    ⟨child, r.occupantChild.mpr ⟨inside, rfl⟩, name, value, binds⟩
  have entry := sourceSound (.namedPair typed kind taken (Node.getBindings _))
  have bound := (Node.getBindings _ name value).mpr last
  exact .entry entry (.entry bound (bareOccurs (bare child inside kind) binds occurs))

theorem prunedOccurs (pruned : r.Pruned n) {d : Node} (inside : d ∈ n.preorder)
    (occurs : Value.Occurs m (.object d.props)) : Value.Occurs m (r.compile n).toValue := by
  induction n using Node.childInduction with
  | node n ih =>
    rcases (n.preorderSelf d).mp inside with rfl | deeper
    · exact propertyOccurs pruned occurs
    obtain ⟨child, within, below⟩ := (n.descendantBelow d).mp deeper
    have ⟨_, _, _, _, bare, compiled⟩ := pruned
    by_cases kind : Slot.classify (r.slotOf child) = .namedPair
    · rcases below with rfl | none
      · exact pairOccurs pruned within kind occurs
      · rw [Node.descendants, (bare child within kind).children] at none
        cases none
    · have reached : d ∈ child.preorder := (child.preorderSelf d).mpr below
      exact compiledChildOccurs pruned within kind (ih child within (compiled child within kind) reached)

theorem compiledOccurs : Value.Occurs m (r.compile n).toValue ↔
    ∃ d ∈ (r.prune n).preorder, Value.Occurs m (.object d.props) := by
  rw [← pruneCompile n]
  constructor
  · exact declaredOccurs
  · intro declared
    obtain ⟨d, inside, occurs⟩ := declared
    exact prunedOccurs (prunePruned n) inside occurs

end Registry
end ChartTree
