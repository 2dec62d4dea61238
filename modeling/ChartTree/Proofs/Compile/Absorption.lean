import ChartTree.Proofs.Compile.EntrySource
import ChartTree.Proofs.Compile.TopLevel
import ChartTree.Proofs.Compile.Visits
import ChartTree.Proofs.Relation

/-! Children that are given up for what they compile to. The children in a slot can go if the node takes the
entry that they made as its own property, and this can be done at any compiled nodes of a tree together.
Where no slot is left out, a leaf remains whose properties are the compiled entries. -/
namespace ChartTree

namespace Entries
variable {α : Type}

def update (m : Map α) (k : String) : Option α → Map α
  | some v => m.insert k v
  | none => m.erase k

theorem getUpdate (m : Map α) (k : String) (v : Option α) (j : String) :
    (m.update k v).get? j = if j = k then v else m.get? j := by
  cases v with
  | none => exact getErase m k j
  | some v => exact getInsert m k v j

end Entries

namespace Registry
variable {r : Registry}

def absorb (r : Registry) (key : String) (n : Node) : Node :=
  { n with
    props := n.props.update key ((r.compile n).get? key)
    children := n.children.filter fun child => r.slotOf child ≠ key }

def absorbEach (r : Registry) (keys : List String) (n : Node) : Node :=
  keys.foldl (fun n key => r.absorb key n) n

/- The slots to absorb are chosen by position. A position is a path of child indices in the tree as it was
declared; positions in and below named pairs are passed over. -/
mutual
def absorbAt (r : Registry) (chosen : List Nat → List String) : Node → Node
  | ⟨tag, id, slot, props, children⟩ =>
    r.absorbEach (chosen []) ⟨tag, id, slot, props, r.absorbBelow chosen 0 children⟩

def absorbBelow (r : Registry) (chosen : List Nat → List String) (position : Nat) : List Node → List Node
  | [] => []
  | child :: rest =>
    (if r.Entered child then r.absorbAt (fun path => chosen (position :: path)) child else child) ::
      r.absorbBelow chosen (position + 1) rest
end

def absorbTop (r : Registry) (chosen : List Nat → List String) : List Node → List Node
  | [node] =>
    if node.tag.isView then [r.absorbAt (fun path => chosen (0 :: path)) node] else r.absorbBelow chosen 0 [node]
  | nodes => r.absorbBelow chosen 0 nodes

theorem occupantsOthers (key slot : String) (children : List Node) :
    r.occupants slot (children.filter fun child => r.slotOf child ≠ key) =
      if slot = key then [] else r.occupants slot children := by
  rw [occupants, List.filter_filter]
  split
  · rename_i same
    subst same
    simp
  · rename_i other
    refine List.filter_congr fun child _ => ?_
    by_cases own : r.slotOf child = slot <;> simp [own, other]

theorem absorbCompile (key : String) (n : Node) : r.compile (r.absorb key n) = r.compile n := by
  refine compileSame rfl fun k other => ?_
  have left := occupantsOthers (r := r) key k n.children
  simp only [absorb, Entries.getUpdate]
  split
  · rename_i same
    rw [if_pos same] at left
    rw [contributionFree _ (.inl left), Option.none_or, ← same, getCompile, if_neg other]
  · rename_i apart
    rw [if_neg apart] at left
    rw [r.contributionCongr left]

theorem absorbEachCompile (keys : List String) (n : Node) : r.compile (r.absorbEach keys n) = r.compile n := by
  induction keys generalizing n with
  | nil => rfl
  | cons key rest ih => exact (ih (r.absorb key n)).trans (absorbCompile key n)

theorem absorbEachTag (keys : List String) (n : Node) : (r.absorbEach keys n).tag = n.tag := by
  induction keys generalizing n with
  | nil => rfl
  | cons key rest ih => exact ih (r.absorb key n)

theorem absorbEachSlot (keys : List String) (n : Node) : (r.absorbEach keys n).slot = n.slot := by
  induction keys generalizing n with
  | nil => rfl
  | cons key rest ih => exact ih (r.absorb key n)

theorem absorbEachChildren (keys : List String) (n : Node) :
    (r.absorbEach keys n).children = n.children.filter fun child => r.slotOf child ∉ keys := by
  induction keys generalizing n with
  | nil => simp [absorbEach]
  | cons key rest ih =>
    refine (ih (r.absorb key n)).trans ?_
    simp [absorb, List.filter_filter, Bool.and_comm]

structure Exchangeable (r : Registry) (child other : Node) : Prop where
  slot : r.slotOf child = r.slotOf other
  compiled : r.Entered child → r.compile child = r.compile other
  read : ¬ r.Entered child → child.namedPair? = other.namedPair?

theorem exchangedContribution {children others : List Node}
    (all : List.Forall₂ r.Exchangeable children others) (key : String) :
    r.contribution key children = r.contribution key others := by
  have occupants := relatedOccupants Exchangeable.slot key all
  have own : ∀ child ∈ r.occupants key children, r.slotOf child = key :=
    fun child inside => (r.occupantChild.mp inside).2
  refine contributionSame (fun kind => ?_) (fun kind => ?_) (fun kind => ?_)
  · refine relatedOption r.compile (relatedLast occupants) fun child last other exchange => exchange.compiled ?_
    simp [Entered, own child (List.mem_of_getLast? last), kind]
  · refine relatedMap r.compile occupants fun child inside other exchange => exchange.compiled ?_
    simp [Entered, own child inside, kind]
  · refine congrArg Entries.ofList (relatedFilterMap _ occupants fun child inside other exchange => exchange.read ?_)
    simp [Entered, own child inside, kind]

theorem exchangedCompile {n : Node} {others : List Node} (all : List.Forall₂ r.Exchangeable n.children others) :
    r.compile (n.setChildren others) = r.compile n := by
  refine compileSame rfl fun key _ => ?_
  rw [exchangedContribution all key]
  rfl

theorem absorbAtNode (chosen : List Nat → List String) (n : Node) :
    r.absorbAt chosen n = r.absorbEach (chosen []) (n.setChildren (r.absorbBelow chosen 0 n.children)) := by
  cases n
  rw [absorbAt]
  rfl

theorem absorbAtSlot (chosen : List Nat → List String) (n : Node) :
    r.slotOf (r.absorbAt chosen n) = r.slotOf n := by
  rw [absorbAtNode, slotOf, absorbEachSlot, absorbEachTag]
  rfl

theorem absorbBelowExchanged {children : List Node}
    (below : ∀ child ∈ children, ∀ chosen, r.compile (r.absorbAt chosen child) = r.compile child)
    (chosen : List Nat → List String) (position : Nat) :
    List.Forall₂ r.Exchangeable children (r.absorbBelow chosen position children) := by
  induction children generalizing position with
  | nil =>
    rw [absorbBelow]
    exact .nil
  | cons child rest ih =>
    have later := ih (fun sibling inside => below sibling (List.mem_cons_of_mem child inside)) (position + 1)
    rw [absorbBelow]
    refine .cons ?_ later
    split
    · rename_i entered
      exact ⟨(absorbAtSlot _ child).symm, fun _ => (below child List.mem_cons_self _).symm, absurd entered⟩
    · exact ⟨rfl, fun _ => rfl, fun _ => rfl⟩

theorem absorbAtCompile (chosen : List Nat → List String) (n : Node) :
    r.compile (r.absorbAt chosen n) = r.compile n := by
  induction n using Node.childInduction generalizing chosen with
  | node n ih =>
    have exchanged := absorbBelowExchanged (fun child inside chosen => ih child inside chosen) chosen 0
    rw [absorbAtNode, absorbEachCompile, exchangedCompile exchanged]

theorem partsAbsorbed (chosen : List Nat → List String) (nodes : List Node) :
    r.compileParts .defaultView .empty (r.absorbBelow chosen 0 nodes) =
      r.compileParts .defaultView .empty nodes := by
  let view := (Node.ofTag .defaultView).setChildren nodes
  have exchanged : List.Forall₂ r.Exchangeable view.children (r.absorbBelow chosen 0 nodes) :=
    absorbBelowExchanged (fun child _ chosen => absorbAtCompile chosen child) chosen 0
  have same := exchangedCompile exchanged
  rwa [compileOfParts, compileOfParts] at same

theorem absorbAtTag (chosen : List Nat → List String) (n : Node) : (r.absorbAt chosen n).tag = n.tag := by
  rw [absorbAtNode, absorbEachTag]
  rfl

theorem absorbTopCompile (chosen : List Nat → List String) (nodes : List Node) :
    r.compileRoot (r.absorbTop chosen nodes) = r.compileRoot nodes := by
  cases nodes with
  | nil => rfl
  | cons first rest =>
    have parts := partsAbsorbed (r := r) chosen (first :: rest)
    have kept (path : List Nat → List String) : (if r.Entered first then r.absorbAt path first else first).tag =
        first.tag := by
      split
      · exact absorbAtTag path first
      · rfl
    rw [absorbBelow] at parts
    cases rest with
    | nil =>
      rw [absorbTop]
      split
      · rename_i view
        rw [compileRootView r ((absorbAtTag _ first).symm ▸ view), compileRootView r view, absorbAtCompile]
      · rename_i bare
        rw [absorbBelow] at parts
        simp only [absorbBelow, compileRoot, kept, bare, parts, Bool.false_eq_true, if_false]
    | cons second rest =>
      rw [absorbBelow] at parts
      exact congrArg some parts

theorem leafEntries {leaf : Node} (childless : leaf.children = []) :
    (r.compile leaf).entries = leaf.props.insert typeKey (.string leaf.tag.variant) := by
  apply Entries.ext
  intro key
  have entry := r.getCompile leaf key
  rw [childless, contributionFree [] (.inl rfl), Option.none_or] at entry
  exact entry.trans (Entries.getInsert ..).symm

theorem entriesCompile (n : Node) :
    r.compile ((Node.ofTag n.tag).setProps (r.compile n).entries) = r.compile n := by
  apply Spec.ext
  apply Entries.ext
  intro key
  rw [leafEntries rfl, Entries.getInsert]
  split
  · rename_i same
    exact ((r.getCompile n key).trans (if_pos same)).symm
  · rfl

theorem absorbAllChildren (r : Registry) (n : Node) : (r.absorbEach (n.children.map r.slotOf) n).children = [] := by
  rw [absorbEachChildren, List.filter_eq_nil_iff]
  intro child inside
  simpa using ⟨child, inside, rfl⟩

theorem absorbedSlotsCompileSame (r : Registry) (n : Node) :
    (∀ key, r.compile (r.absorb key n) = r.compile n) ∧
    (∀ chosen, r.compile (r.absorbAt chosen n) = r.compile n) ∧
    (∀ chosen nodes, r.compileRoot (r.absorbTop chosen nodes) = r.compileRoot nodes) ∧
    r.compile ((Node.ofTag n.tag).setProps (r.compile n).entries) = r.compile n ∧
    let leaf := r.absorbEach (n.children.map r.slotOf) n
    leaf.children = [] ∧ leaf.props.insert "type" (.string n.tag.variant) = (r.compile n).entries := by
  refine ⟨fun key => absorbCompile key n, fun chosen => absorbAtCompile chosen n, absorbTopCompile,
    entriesCompile n, r.absorbAllChildren n, ?_⟩
  have leaf := leafEntries (r := r) (r.absorbAllChildren n)
  rw [absorbEachCompile, absorbEachTag] at leaf
  exact leaf.symm

end Registry
end ChartTree
