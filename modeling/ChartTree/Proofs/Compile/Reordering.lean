import ChartTree.Node.Catalogue
import ChartTree.Proofs.Compile.Agreement
import ChartTree.Proofs.Compile.EntrySource
import ChartTree.Proofs.Relation

/-! Trees that differ in the order of independent siblings. They are compared slot by slot at every depth,
each slot by what its class takes from the children, and a change of order within the rules is one case. -/
namespace ChartTree

namespace Registry
variable {r : Registry}

/- Identifiers and explicit slots are not compared: the slot of a child is settled by the list it stands in,
and what stands below a named pair does not matter. -/
inductive Related (r : Registry) : Node → Node → Prop where
  | intro {a b : Node} (tag : a.tag = b.tag) (props : a.props = b.props)
      (single : ∀ slot, Slot.classify slot = .single →
        Option.Rel (Related r) (r.occupants slot a.children).getLast? (r.occupants slot b.children).getLast?)
      (collection : ∀ slot, Slot.classify slot = .collection →
        List.Forall₂ (Related r) (r.occupants slot a.children) (r.occupants slot b.children))
      (namedPair : ∀ slot, Slot.classify slot = .namedPair → ∀ name value,
        Node.LastBinding (r.occupants slot a.children) name value ↔
          Node.LastBinding (r.occupants slot b.children) name value) :
      Related r a b

inductive Reordered (r : Registry) : Node → Node → Prop where
  | intro {tag : Tag} {id : Option UInt64} {slot : Option String} {props : Map Value}
      {children inside moved : List Node}
      (below : List.Forall₂ (Reordered r) children inside)
      (permuted : inside.Perm moved)
      (order : ∀ slot, r.occupants slot inside = r.occupants slot moved) :
      Reordered r ⟨tag, id, slot, props, children⟩ ⟨tag, id, slot, props, moved⟩

variable {a b : Node}

theorem bindingsSame {slot : String} {xs ys : List Node}
    (same : ∀ name value, Node.LastBinding (r.occupants slot xs) name value ↔
      Node.LastBinding (r.occupants slot ys) name value) :
    Entries.ofList (r.bindings slot xs) = Entries.ofList (r.bindings slot ys) := by
  apply Entries.ext
  intro name
  apply Option.ext
  intro value
  have left := Node.getBindings (r.occupants slot xs) name value
  have right := Node.getBindings (r.occupants slot ys) name value
  exact left.trans ((same name value).trans right.symm)

theorem relatedCompile (related : r.Related a b) : r.compile a = r.compile b := by
  induction a using Node.childInduction generalizing b with
  | node a ih =>
    cases related with
    | intro tag props single collection namedPair =>
      refine compileSame tag fun key _ => ?_
      have contribution : r.contribution key a.children = r.contribution key b.children := by
        refine contributionSame (fun kind => ?_) (fun kind => ?_) (fun kind => ?_)
        · exact relatedOption r.compile (single key kind) fun x last y =>
            ih x (r.occupantChild.mp (List.mem_of_getLast? last)).1
        · exact relatedMap r.compile (collection key kind) fun x inside y => ih x (r.occupantChild.mp inside).1
        · exact bindingsSame (namedPair key kind)
      rw [contribution, props]

theorem reorderedProps (moved : r.Reordered a b) : a.props = b.props := by
  cases moved with
  | intro below permuted order => rfl

theorem reorderedSlot (moved : r.Reordered a b) : r.slotOf a = r.slotOf b := by
  cases moved with
  | intro below permuted order => rfl

theorem reorderedBindings {xs ys : List Node} (below : List.Forall₂ r.Reordered xs ys) :
    xs.filterMap Node.namedPair? = ys.filterMap Node.namedPair? :=
  relatedFilterMap _ below fun x _ y moved => by simp only [Node.namedPair?, reorderedProps moved]

theorem reorderedRelated (moved : r.Reordered a b) : r.Related a b := by
  induction a using Node.childInduction generalizing b with
  | node a ih =>
    cases moved with
    | @intro tag id slot props children inside others below permuted order =>
      have occupants (slot : String) :
          List.Forall₂ r.Related (r.occupants slot children) (r.occupants slot others) := by
        rw [← order slot]
        have moved := relatedOccupants reorderedSlot slot below
        exact relatedWithin moved fun x kept y => ih x (r.occupantChild.mp kept).1
      refine .intro rfl rfl (fun slot _ => relatedLast (occupants slot)) (fun slot _ => occupants slot) ?_
      intro slot _ name value
      have bound := reorderedBindings (relatedOccupants reorderedSlot slot below)
      rw [← order slot, ← Node.getBindings, ← Node.getBindings, bound]

theorem reorderedRefl (n : Node) : r.Reordered n n := by
  induction n using Node.childInduction with
  | node n ih =>
    obtain ⟨tag, id, slot, props, children⟩ := n
    have below : List.Forall₂ r.Reordered children children := List.forall₂_same.mpr ih
    exact .intro below (.refl children) fun _ => rfl

theorem occupantsSwap {x y : Node} (rest : List Node) (differ : r.slotOf x ≠ r.slotOf y) (slot : String) :
    r.occupants slot (x :: y :: rest) = r.occupants slot (y :: x :: rest) := by
  by_cases first : r.slotOf x = slot
  · have second : r.slotOf y ≠ slot := fun same => differ (first.trans same.symm)
    simp only [occupantsCons, if_pos first, if_neg second]
  · simp only [occupantsCons, if_neg first]

theorem relatedRefl (n : Node) : r.Related n n := reorderedRelated (reorderedRefl n)

theorem overwrittenRelated {child : Node} {later : List Node} (n : Node)
    (kind : Slot.classify (r.slotOf child) = .single) (taken : r.occupants (r.slotOf child) later ≠ []) :
    r.Related (n.setChildren (child :: later)) (n.setChildren later) := by
  have others : ∀ slot, Slot.classify slot ≠ .single →
      r.occupants slot (child :: later) = r.occupants slot later := by
    intro slot differ
    have other : r.slotOf child ≠ slot := fun own => differ (own ▸ kind)
    rw [occupantsCons, if_neg other]
  refine .intro rfl rfl (fun slot _ => ?_) (fun slot collection => ?_) (fun slot namedPair name value => ?_)
  · simp only [Node.setChildren, lastOverwritten taken]
    exact relatedLast (List.forall₂_same.mpr fun x _ => relatedRefl x)
  · simp only [Node.setChildren, others slot (by rw [collection]; decide)]
    exact List.forall₂_same.mpr fun x _ => relatedRefl x
  · simp only [Node.setChildren, others slot (by rw [namedPair]; decide)]

theorem reorderedCompileSame (r : Registry) (a b : Node) :
    (r.Related a b → r.compile a = r.compile b) ∧ (r.Reordered a b → r.compile a = r.compile b) :=
  ⟨relatedCompile, fun moved => relatedCompile (reorderedRelated moved)⟩

theorem swappedAtTwoLevels :
    let line := (Node.ofTag (.mark .line)).setChildren [.title "sales", .encoding .field "x" (.string "genre")]
    let turned := (Node.ofTag (.mark .line)).setChildren [.encoding .field "x" (.string "genre"), .title "sales"]
    let chart := (Node.ofTag .defaultView).setChildren [.title "chart", line]
    let other := (Node.ofTag .defaultView).setChildren [turned, .title "chart"]
    let longer := chart.setChildren (.title "draft" :: chart.children)
    (standard.Reordered chart other ∧ standard.compile chart = standard.compile other) ∧
      standard.Related longer chart ∧ standard.compile longer = standard.compile chart := by
  intro line turned chart other longer
  have inner : standard.Reordered line turned := by
    have same := List.forall₂_same.mpr fun child (_ : child ∈ line.children) => standard.reorderedRefl child
    exact .intro same (.swap ..) (occupantsSwap [] (by decide))
  have moved : standard.Reordered chart other :=
    .intro (.cons (reorderedRefl _) (.cons inner .nil)) (.swap ..) (occupantsSwap [] (by decide))
  have related : standard.Related longer chart :=
    overwrittenRelated chart (by decide) (List.cons_ne_nil _ _)
  exact ⟨⟨moved, (reorderedCompileSame standard chart other).2 moved⟩,
    related, (reorderedCompileSame standard longer chart).1 related⟩

end Registry
end ChartTree
